import AssignOnce.Proofs.Analysis.Presumption
import AssignOnce.Proofs.Tree.Kept
import Mathlib.Data.List.Basic

/-!
# The same code with other comments

When comments are exchanged, the code behind them moves, but its order stays (`Source.SameCode`).
Comments above declarations are nodes, so other nodes get new places when such comments come or go.
Presumptions do not depend on comments (`SameCode.presumed_eq`): as long as all comments stay nodes,
because the search for a declaration only compares positions and therefore finds the same node
(`SameCode.innermostAt?_eq`), and otherwise because of what presumptions mean.
-/

namespace AssignOnce

namespace Span

/-- A span after its ends have moved. -/
def moved (move : Int → Int) (s : Span) : Span := ⟨move s.start, move s.stop⟩

end Span

namespace Object

/-- An object after the place of its declaration has moved. -/
def moved (move : Int → Int) (o : Object) : Object :=
  match o.kind with
  | .variable v => { o with kind := .variable { v with pos := move v.pos } }
  | _ => o

theorem name_moved (move : Int → Int) (o : Object) : (o.moved move).name = o.name := by
  obtain ⟨name, type, kind⟩ := o
  cases kind <;> rfl

theorem asVariable?_moved (move : Int → Int) (o : Object) : (o.moved move).asVariable? =
    o.asVariable?.map fun v => { v with pos := move v.pos } := by
  obtain ⟨name, type, kind⟩ := o
  cases kind <;> rfl

end Object

namespace Kind

theorem isFunctionDeclaration_shape (k : Kind) :
    k.shape.isFunctionDeclaration = k.isFunctionDeclaration := by
  cases k <;> rfl

theorem isFile_shape (k : Kind) : k.shape.isFile = k.isFile := by
  cases k <;> rfl

end Kind

namespace Tree

/-- The nodes of a tree, with or without those of comments. -/
def parts (t : Tree) (comments : Bool) : List Nat :=
  t.ids.filter fun i => comments || !(t.kind i).isComment

theorem mem_parts {t : Tree} {comments : Bool} {i : Nat} :
    i ∈ t.parts comments ↔ i < t.size ∧ (comments ∨ (t.kind i).isComment = false) := by
  simp [parts, ids]

theorem mem_parts_of_isFunction {t : Tree} {f : Nat} (h : t.isFunction f) (comments : Bool) :
    f ∈ t.parts comments :=
  mem_parts.2 ⟨lt_size_of_isFunction h, .inr (Kind.isComment_of_isFunction h)⟩

theorem mem_parts_of_isIdent {t : Tree} {i : Nat} (h : (t.kind i).isIdent) (comments : Bool) :
    i ∈ t.parts comments := by
  obtain ⟨name, hname⟩ := Option.isSome_iff_exists.1 h
  exact mem_parts.2 ⟨lt_size_of_isIdent h, .inr (Kind.isComment_of_identName? hname)⟩

/-- Whether a field of a node of a kind holds parameters or a receiver. -/
def holdsParametersIn (parent? : Option Kind) (field : Field) : Bool :=
  match parent?, field with
  | some .funcType, .params => true
  | some (.funcDecl ..), .recv => true
  | _, _ => false

/-- How an identifier in a field of a node of a kind declares a variable. -/
def declarationFormIn (parent? : Option Kind) (field : Field) (ofParameter : Bool) :
    DeclarationForm :=
  match parent?, field with
  | some (.valueSpec _), .names => .plain
  | some (.assignStmt ..), .lhs => .plain
  | some .rangeStmt, .key => .plain
  | some .rangeStmt, .value => .plain
  | some .field, .names => if ofParameter then .parameter else .other
  | _, _ => .other

theorem parts_true (t : Tree) : t.parts true = List.range t.size :=
  List.filter_eq_self.2 fun _ _ => rfl

theorem mem_parts_true {t : Tree} {i : Nat} (hi : i < t.size) : i ∈ t.parts true :=
  mem_parts.2 ⟨hi, .inl rfl⟩

theorem Search.overlapsName_eq (t : Tree) (s : Search) (i : Nat) : s.overlapsName t i =
    ((t.kind i).shape == .funcType &&
      (t.parent? i).any fun p => (t.kind p).isFunctionDeclaration && s.best.any (p < ·)) := by
  unfold overlapsName
  cases t.kind i <;> cases t.parent? i <;> cases s.best <;> simp [Kind.shape]

theorem isParameterList_eq (t : Tree) (i : Nat) : t.isParameterList i =
    holdsParametersIn ((t.parentKind? i).map Kind.shape) (t.field i) := by
  unfold isParameterList
  cases t.parentKind? i with
  | none => rfl
  | some k => cases k <;> cases t.field i <;> rfl

theorem declarationForm_eq (t : Tree) (i : Nat) : t.declarationForm i =
    declarationFormIn ((t.parentKind? i).map Kind.shape) (t.field i)
      (((t.parent? i).bind t.parent?).any t.isParameterList) := by
  unfold declarationForm
  cases t.parentKind? i with
  | none => rfl
  | some k => cases k <;> cases t.field i <;> rfl

end Tree

namespace Source

/-- Whether a node is found at its place in another file: below the place of its parent, in the same
field, declaring the same, and moved as a whole. Kinds may differ in positions, comments and what is
referred to. -/
structure FoundIn (src src' : Source) (place : Nat → Nat) (move : Int → Int) (i : Nat) : Prop where
  parent : src'.tree.parent? (place i) = (src.tree.parent? i).map place
  field : src'.tree.field (place i) = src.tree.field i
  shape : (src'.tree.kind (place i)).shape = (src.tree.kind i).shape
  declares : (src'.tree.kind (place i)).declares = (src.tree.kind i).declares
  span : src'.tree.span (place i) = (src.tree.span i).moved move

instance (src src' : Source) (place : Nat → Nat) (move : Int → Int) (i : Nat) :
    Decidable (src.FoundIn src' place move i) :=
  decidable_of_iff (_ ∧ _ ∧ _ ∧ _ ∧ _)
    ⟨fun ⟨parent, field, shape, declares, span⟩ => ⟨parent, field, shape, declares, span⟩,
      fun h => ⟨h.parent, h.field, h.shape, h.declares, h.span⟩⟩

/-- The positions that matter: no position, the bounds of a file, and where nodes and the names of
variables start and end. -/
def marks (src : Source) (comments : Bool) : List Int :=
  0 :: src.file.bounds.start :: src.file.bounds.stop ::
    ((src.tree.parts comments).flatMap fun i => [src.tree.start i, src.tree.stop i]) ++
    src.package.objects.toList.flatMap fun o =>
      o.asVariable?.elim [] fun v => [v.pos, v.pos + o.name.utf8ByteSize]

/-- Whether two files hold the same code, which may have moved: the positions that matter keep their
order, objects are numbered alike, names have moved as a whole, and nodes have places in the other
file in the same order. If nodes of comments are left out of this, both files are as a parser leaves
them. -/
structure SameCode (src src' : Source) (comments : Bool) (place : Nat → Nat) (move : Int → Int) :
    Prop where
  mono : ∀ p ∈ src.marks comments, ∀ q ∈ src.marks comments, p < q → move p < move q
  zero : move 0 = 0
  bounds : src'.file.bounds = src.file.bounds.moved move
  parts : src'.tree.parts comments = (src.tree.parts comments).map place
  found : ∀ i ∈ src.tree.parts comments, src.FoundIn src' place move i
  above : ∀ i ∈ src.tree.parts comments, ∀ p ∈ src.tree.parent? i, p ∈ src.tree.parts comments
  objects : src'.package.objects = src.package.objects.map (Object.moved move)
  widths : ∀ o ∈ src.package.objects, ∀ v ∈ o.asVariable?,
    move (v.pos + o.name.utf8ByteSize) = move v.pos + o.name.utf8ByteSize
  parsed : comments = false → src.Parsed ∧ src'.Parsed

section Marks

variable {src : Source} {comments : Bool}

theorem zero_mem_marks : 0 ∈ src.marks comments := by
  simp [marks]

theorem ends_mem_marks {i : Nat} (hi : i ∈ src.tree.parts comments) :
    src.tree.start i ∈ src.marks comments ∧ src.tree.stop i ∈ src.marks comments := by
  have hends : ∀ p ∈ [src.tree.start i, src.tree.stop i], p ∈ src.marks comments := by
    intro p hp
    refine List.mem_append_left _ ?_
    simp only [List.mem_cons]
    exact .inr (.inr (.inr (List.mem_flatMap.2 ⟨i, hi, hp⟩)))
  exact ⟨hends _ (by simp), hends _ (by simp)⟩

theorem ends_spanIn_mem_marks {i : Nat} (hi : i ∈ src.tree.parts comments) :
    (src.tree.spanIn src.file.bounds i).start ∈ src.marks comments ∧
      (src.tree.spanIn src.file.bounds i).stop ∈ src.marks comments := by
  unfold Tree.spanIn
  split
  · simp [marks]
  · exact ends_mem_marks hi

theorem object_mem_of_asVariable? {o : Nat} {v : Variable}
    (hv : src.package.asVariable? o = some v) :
    src.package.object o ∈ src.package.objects := by
  unfold Package.asVariable? Package.object at *
  rw [Array.getD_eq_getD_getElem?] at *
  cases ho : src.package.objects[o]? with
  | none =>
    rw [ho] at hv
    cases hv
  | some b => exact Array.mem_of_getElem? ho

theorem name_mem_marks {o : Nat} {v : Variable} (hv : src.package.asVariable? o = some v) :
    v.pos ∈ src.marks comments ∧
      v.pos + (src.nameOf o).utf8ByteSize ∈ src.marks comments := by
  have hends : ∀ p ∈ [v.pos, v.pos + ((src.nameOf o).utf8ByteSize : Int)],
      p ∈ src.marks comments := by
    intro p hp
    refine List.mem_append_right _ (List.mem_flatMap.2 ⟨src.package.object o, ?_, ?_⟩)
    · exact Array.mem_toList_iff.2 (object_mem_of_asVariable? hv)
    · rw [show (src.package.object o).asVariable? = some v from hv]
      exact hp
  exact ⟨hends _ (by simp), hends _ (by simp)⟩

end Marks

theorem declares_of_declaration? {src : Source} {o i : Nat} (h : src.declaration? o = some i) :
    (src.tree.kind i).declares = .object o := by
  unfold declaration? at h
  split at h
  · cases h
  · split at h
    · split at h
      · cases h
        assumption
      · cases h
    · cases h

end Source

namespace Source.SameCode

variable {src src' : Source} {comments : Bool} {place : Nat → Nat} {move : Int → Int}

section

variable (h : src.SameCode src' comments place move)
include h

section Move

variable {p q : Int} (hp : p ∈ src.marks comments) (hq : q ∈ src.marks comments)
include hp hq

theorem move_lt_iff : move p < move q ↔ p < q := by
  refine ⟨fun hlt => Int.not_le.1 fun hle => ?_, h.mono p hp q hq⟩
  rcases Int.lt_or_eq_of_le hle with hqp | e
  · have := h.mono q hq p hp hqp
    omega
  · rw [e] at hlt
    omega

theorem move_le_iff : move p ≤ move q ↔ p ≤ q := by
  rw [← Int.not_lt, h.move_lt_iff hq hp, Int.not_lt]

theorem move_inj : move p = move q ↔ p = q := by
  have hle := h.move_le_iff hp hq
  have hge := h.move_le_iff hq hp
  omega

end Move

/-! ## Nodes -/

/-- A node of the other file is at the place of a node. -/
theorem exists_place {j : Nat} (hj : j ∈ src'.tree.parts comments) :
    ∃ i ∈ src.tree.parts comments, place i = j := by
  rw [h.parts, List.mem_map] at hj
  exact hj

theorem parentKind?_eq {i : Nat} (hi : i ∈ src.tree.parts comments) :
    (src'.tree.parentKind? (place i)).map Kind.shape =
      (src.tree.parentKind? i).map Kind.shape := by
  rw [Tree.parentKind?, Tree.parentKind?, (h.found i hi).parent, Option.map_map, Option.map_map,
    Option.map_map]
  exact Option.map_congr fun p hp => (h.found p (h.above i hi p hp)).shape

theorem isFunction_eq {i : Nat} (hi : i ∈ src.tree.parts comments) :
    src'.tree.isFunction (place i) = src.tree.isFunction i := by
  rw [Tree.isFunction, Tree.isFunction, ← Kind.isFunction_shape, (h.found i hi).shape,
    Kind.isFunction_shape]

theorem isFunctionDeclaration_eq {i : Nat} (hi : i ∈ src.tree.parts comments) :
    (src'.tree.kind (place i)).isFunctionDeclaration =
      (src.tree.kind i).isFunctionDeclaration := by
  rw [← Kind.isFunctionDeclaration_shape, (h.found i hi).shape, Kind.isFunctionDeclaration_shape]

/-- What lies around the place of a node are the places of what lies around the node. -/
theorem enclosing_eq {i : Nat} (hi : i ∈ src.tree.parts comments) :
    src'.tree.enclosing (place i) = (src.tree.enclosing i).map place := by
  induction i using Nat.strongRecOn with
  | ind i ih =>
    have hparent := (h.found i hi).parent
    cases hp : src.tree.parent? i with
    | none =>
      rw [hp] at hparent
      rw [Tree.enclosing_of_root hp, Tree.enclosing_of_root hparent]
      rfl
    | some p =>
      rw [hp] at hparent
      rw [Tree.enclosing_of_parent hp, Tree.enclosing_of_parent hparent, List.map_cons,
        ih p (Tree.lt_of_parent? hp) (h.above i hi p hp)]

theorem mem_parts_of_mem_enclosing {i a : Nat} (hi : i ∈ src.tree.parts comments)
    (ha : a ∈ src.tree.enclosing i) : a ∈ src.tree.parts comments := by
  induction i using Nat.strongRecOn with
  | ind i ih =>
    rcases Tree.mem_enclosing_iff.1 ha with rfl | ⟨p, hp, hap⟩
    · exact hi
    · exact ih p (Tree.lt_of_parent? hp) (h.above i hi p hp) hap

theorem isParameterList_eq {i : Nat} (hi : i ∈ src.tree.parts comments) :
    src'.tree.isParameterList (place i) = src.tree.isParameterList i := by
  rw [Tree.isParameterList_eq, Tree.isParameterList_eq, h.parentKind?_eq hi, (h.found i hi).field]

theorem declarationForm_eq {i : Nat} (hi : i ∈ src.tree.parts comments) :
    src'.tree.declarationForm (place i) = src.tree.declarationForm i := by
  have hlist : ((src'.tree.parent? (place i)).bind src'.tree.parent?).any src'.tree.isParameterList =
      ((src.tree.parent? i).bind src.tree.parent?).any src.tree.isParameterList := by
    rw [(h.found i hi).parent]
    cases hp : src.tree.parent? i with
    | none => rfl
    | some p =>
      have hp := h.above i hi p hp
      simp only [Option.map_some, Option.bind_some, (h.found p hp).parent]
      cases hl : src.tree.parent? p with
      | none => rfl
      | some l => exact h.isParameterList_eq (h.above p hp l hl)
  rw [Tree.declarationForm_eq, Tree.declarationForm_eq, h.parentKind?_eq hi, (h.found i hi).field,
    hlist]

/-! ## Objects -/

theorem object_eq (o : Nat) : src'.package.object o = (src.package.object o).moved move := by
  unfold Package.object
  rw [h.objects, Array.getD_eq_getD_getElem?, Array.getD_eq_getD_getElem?, Array.getElem?_map]
  cases src.package.objects[o]? <;> rfl

theorem nameOf_eq (o : Nat) : src'.nameOf o = src.nameOf o := by
  rw [nameOf, nameOf, h.object_eq, Object.name_moved]

theorem asVariable?_eq (o : Nat) : src'.package.asVariable? o =
    (src.package.asVariable? o).map fun v => { v with pos := move v.pos } := by
  rw [Package.asVariable?, Package.asVariable?, h.object_eq, Object.asVariable?_moved]

theorem width_eq {o : Nat} {v : Variable} (hv : src.package.asVariable? o = some v) :
    move (v.pos + (src.nameOf o).utf8ByteSize) = move v.pos + (src.nameOf o).utf8ByteSize :=
  h.widths _ (object_mem_of_asVariable? hv) v hv

end

/-! ## Presumptions if all comments stay nodes -/

section Kept

variable (h : src.SameCode src' true place move)
include h

theorem size_eq : src'.tree.size = src.tree.size := by
  simpa [Tree.parts_true] using congrArg List.length h.parts

theorem place_eq {i : Nat} (hi : i < src.tree.size) : place i = i := by
  have hparts := h.parts
  rw [Tree.parts_true, Tree.parts_true, h.size_eq] at hparts
  simpa [hi] using (congrArg (·[i]?) hparts).symm

/-- Nodes have kept their places. -/
theorem found_self {i : Nat} (hi : i < src.tree.size) : src.FoundIn src' id move i := by
  obtain ⟨hparent, hfield, hshape, hdeclares, hspan⟩ := h.found i (Tree.mem_parts_true hi)
  have hplaces : (src.tree.parent? i).map place = (src.tree.parent? i).map id :=
    Option.map_congr fun p hp => h.place_eq (Tree.parent_lt_size hp)
  rw [h.place_eq hi] at hparent hfield hshape hdeclares hspan
  exact ⟨hparent.trans hplaces, hfield, hshape, hdeclares, hspan⟩

theorem enclosing_self {i : Nat} (hi : i < src.tree.size) :
    src'.tree.enclosing i = src.tree.enclosing i := by
  have henclosing := h.enclosing_eq (Tree.mem_parts_true hi)
  have hplaces : (src.tree.enclosing i).map place = (src.tree.enclosing i).map id :=
    List.map_congr_left fun a ha =>
      h.place_eq (Nat.lt_of_le_of_lt (Tree.le_of_mem_enclosing ha) hi)
  rw [h.place_eq hi, hplaces, List.map_id] at henclosing
  exact henclosing

theorem spanIn_eq {i : Nat} (hi : i < src.tree.size) : src'.tree.spanIn src'.file.bounds i =
    (src.tree.spanIn src.file.bounds i).moved move := by
  unfold Tree.spanIn
  split
  · exact h.bounds
  · exact (h.found_self hi).span

theorem overlapsName_eq (s : Tree.Search) {i : Nat} (hi : i < src.tree.size) :
    s.overlapsName src'.tree i = s.overlapsName src.tree i := by
  have hparent : src'.tree.parent? i = src.tree.parent? i := by
    simpa using (h.found_self hi).parent
  have hshape : (src'.tree.kind i).shape = (src.tree.kind i).shape := (h.found_self hi).shape
  rw [Tree.Search.overlapsName_eq, Tree.Search.overlapsName_eq, hshape, hparent]
  cases hp : src.tree.parent? i with
  | none => rfl
  | some p =>
    have hp := Tree.parent_lt_size hp
    have hdeclaration := h.isFunctionDeclaration_eq (Tree.mem_parts_true hp)
    rw [h.place_eq hp] at hdeclaration
    simp only [Option.any_some, hdeclaration]

section Piece

variable (piece : Span) (hstart : piece.start ∈ src.marks true)
  (hstop : piece.stop ∈ src.marks true)
include hstart hstop

theorem visit_eq (s : Tree.Search) {i : Nat} (hi : i < src.tree.size) :
    s.visit src'.tree src'.file.bounds (piece.moved move) i =
      s.visit src.tree src.file.bounds piece i := by
  obtain ⟨hs, he⟩ := ends_spanIn_mem_marks (Tree.mem_parts_true hi)
  have hwithin : src'.tree.within i = src.tree.within i := by
    funext r
    rw [Tree.within, Tree.within, h.enclosing_self hi]
  rw [Tree.Search.visit_eq, Tree.Search.visit_eq]
  simp only [hwithin, h.overlapsName_eq s hi, h.spanIn_eq hi, Span.moved, h.move_lt_iff hstart hs,
    h.move_le_iff hstop he, h.move_lt_iff he hstart]

/-- The search at a place finds the same node. -/
theorem innermostAt?_eq : src'.tree.innermostAt? src'.file.bounds (piece.moved move) =
    src.tree.innermostAt? src.file.bounds piece := by
  unfold Tree.innermostAt? Tree.ids
  rw [h.size_eq]
  congr 1
  exact List.foldl_ext _ _ _ fun s i hi => h.visit_eq piece hstart hstop s (List.mem_range.1 hi)

end Piece

theorem declaration?_self (o : Nat) : src'.declaration? o = src.declaration? o := by
  unfold declaration?
  rw [h.asVariable?_eq]
  cases hv : src.package.asVariable? o with
  | none => rfl
  | some v =>
    have hpiece : (⟨move v.pos, move v.pos + (src'.nameOf o).utf8ByteSize⟩ : Span) =
        Span.moved move ⟨v.pos, v.pos + (src.nameOf o).utf8ByteSize⟩ := by
      rw [Span.moved, h.nameOf_eq, h.width_eq hv]
    have hfound := h.innermostAt?_eq ⟨v.pos, v.pos + (src.nameOf o).utf8ByteSize⟩
      (name_mem_marks hv).1 (name_mem_marks hv).2
    simp only [Option.map_some, hpiece, hfound]
    cases hi : src.tree.innermostAt? src.file.bounds
        ⟨v.pos, v.pos + (src.nameOf o).utf8ByteSize⟩ with
    | none => rfl
    | some i =>
      have hdeclares : (src'.tree.kind i).declares = (src.tree.kind i).declares :=
        (h.found_self (Tree.around_of_innermostAt? hi).1).declares
      simp only [hdeclares]

end Kept

/-! ## Presumptions -/

/-- The declaration of a variable is found at its place. -/
theorem declaration?_eq (h : src.SameCode src' comments place move) (o : Nat) :
    src'.declaration? o = (src.declaration? o).map place := by
  cases comments with
  | true =>
    rw [h.declaration?_self]
    cases hi : src.declaration? o with
    | none => rfl
    | some i =>
      have hident := isIdent_of_declares (declares_of_declaration? hi)
      rw [Option.map_some, h.place_eq (Tree.lt_size_of_isIdent hident)]
  | false =>
    obtain ⟨hparsed, hparsed'⟩ := h.parsed rfl
    have hvariable := h.asVariable?_eq o
    cases hv : src.package.asVariable? o with
    | none =>
      rw [hv] at hvariable
      simp [declaration?, hv, hvariable]
    | some v =>
      rw [hv] at hvariable
      ext j
      rw [declaration?_eq_some_iff hparsed' hvariable, Option.map_eq_some_iff]
      simp only [declaration?_eq_some_iff hparsed hv]
      constructor
      · rintro ⟨hstart, hdeclares⟩
        have hj := Tree.mem_parts_of_isIdent (isIdent_of_declares hdeclares) false
        obtain ⟨i, hi, rfl⟩ := h.exists_place hj
        have hfound := h.found i hi
        refine ⟨i, ⟨?_, hfound.declares ▸ hdeclares⟩, rfl⟩
        rw [Tree.start, hfound.span] at hstart
        exact (h.move_inj (ends_mem_marks hi).1 (name_mem_marks hv).1).1 hstart
      · rintro ⟨i, ⟨hstart, hdeclares⟩, rfl⟩
        have hfound := h.found i (Tree.mem_parts_of_isIdent (isIdent_of_declares hdeclares) false)
        refine ⟨?_, hfound.declares.trans hdeclares⟩
        rw [Tree.start, hfound.span]
        exact congrArg move hstart

/-- The same variables are presumed to be assigned once. -/
theorem presumed_eq (h : src.SameCode src' comments place move) (params : Bool) (o : Nat) :
    src'.presumed params o = src.presumed params o := by
  unfold presumed
  rw [h.asVariable?_eq, h.declaration?_eq]
  cases hv : src.package.asVariable? o with
  | none => rfl
  | some v =>
    have hpos : (move v.pos != 0) = (v.pos != 0) := by
      have hzero : move v.pos = 0 ↔ v.pos = 0 := by
        rw [← h.move_inj (name_mem_marks hv).1 zero_mem_marks, h.zero]
      rw [Bool.eq_iff_iff, bne_iff_ne, bne_iff_ne, ne_eq, ne_eq, hzero]
    simp only [Option.map_some, hpos]
    cases hi : src.declaration? o with
    | none => rfl
    | some i =>
      have hident := isIdent_of_declares (declares_of_declaration? hi)
      simp only [Option.map_some,
        h.declarationForm_eq (Tree.mem_parts_of_isIdent hident comments)]
      rfl

end Source.SameCode

end AssignOnce
