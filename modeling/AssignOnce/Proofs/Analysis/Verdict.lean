import AssignOnce.Proofs.Analysis.Classifier
import AssignOnce.Proofs.Analysis.SameCode
import AssignOnce.Proofs.Fix.Permit

/-!
# Directives act on the writes that their functions enclose

A write to a presumed variable is disallowed unless a function around it has a directive with a
valid entry of that name (`Source.Allows`). Where functions are declared only at the top level, all
functions around a write are asked (`DeclaredAtTop.functionsAround_eq`). When comments are
exchanged, a verdict therefore depends only on the entries with the name of the variable in the
directives of the functions around the write (`Source.directives_act_on_enclosed`).
-/

namespace AssignOnce

namespace Tree

/-- Whether functions are declared only at the top level of a file. -/
def DeclaredAtTop (t : Tree) : Prop :=
  ∀ f < t.size, (t.kind f).isFunctionDeclaration →
    ∀ p ∈ t.parent? f, (t.kind p).isFile ∧ t.parent? p = none

instance (t : Tree) : Decidable t.DeclaredAtTop :=
  inferInstanceAs (Decidable (∀ f < t.size, _))

variable {t : Tree}

/-- No function lies around a declared one. -/
theorem DeclaredAtTop.filter_enclosing (h : t.DeclaredAtTop) {f p : Nat}
    (hf : (t.kind f).isFunctionDeclaration) (hp : t.parent? f = some p) :
    (t.enclosing p).filter t.isFunction = [] := by
  obtain ⟨hfile, hroot⟩ := h f (lt_size_of_parent? hp) hf p hp
  have hp : ¬ t.isFunction p := Kind.not_isFunction_of_isFile hfile
  rw [enclosing_of_root hroot, List.filter_cons_of_neg hp, List.filter_nil]

/-- All functions around a node are asked about a write there. -/
theorem DeclaredAtTop.functionsAround_eq (h : t.DeclaredAtTop) (i : Nat) :
    t.functionsAround i = (t.enclosing i).filter t.isFunction := by
  unfold functionsAround
  induction i using Nat.strongRecOn with
  | ind i ih =>
    cases hp : t.parent? i with
    | none =>
      rw [enclosing_of_root hp, List.filter_singleton]
      cases t.isFunction i with
      | false => rfl
      | true => simp [throughFirst]
    | some p =>
      have ih := ih p (lt_of_parent? hp)
      rw [enclosing_of_parent hp]
      by_cases hi : t.isFunction i
      · rw [List.filter_cons_of_pos hi, throughFirst]
        split
        · rename_i hd
          rw [h.filter_enclosing hd hp]
        · rw [ih]
      · rw [List.filter_cons_of_neg hi, ih]

theorem DeclaredAtTop.mem_functionsAround_iff (h : t.DeclaredAtTop) {i f : Nat} :
    f ∈ t.functionsAround i ↔ f ∈ t.enclosing i ∧ t.isFunction f := by
  rw [h.functionsAround_eq, List.mem_filter]

end Tree

namespace Source

variable {src src' : Source}

/-- Whether a directive of a function has a valid entry with a name. -/
def Allows (src : Source) (f : Nat) (name : String) : Prop :=
  ∃ p ∈ src.file.permissionsOf f, ∃ e ∈ p.entries, e.valid ∧ e.name = name

theorem permits_iff_allows {f : Nat} {name : String} : src.permits f name ↔ src.Allows f name := by
  simp only [permits, Permission.allows, Permission.names, List.any_eq_true, List.contains_iff_mem,
    List.mem_map, List.mem_filter, Allows, and_assoc]

instance (src : Source) (f : Nat) (name : String) : Decidable (src.Allows f name) :=
  decidable_of_iff _ permits_iff_allows

/-- A write is disallowed if the variable is presumed to be assigned once and no function around the
write allows its name. -/
theorem disallowed_iff_forall (h : src.tree.DeclaredAtTop) {params : Bool} {o node : Nat} :
    src.disallowed params o node ↔ src.presumed params o ∧
      ∀ f ∈ src.tree.enclosing node, src.tree.isFunction f → ¬ src.Allows f (src.nameOf o) := by
  simp only [disallowed, Bool.and_eq_true, List.all_eq_true, Bool.not_eq_true', ← Bool.not_eq_true,
    permits_iff_allows, h.mem_functionsAround_iff, and_imp]

/-- Whether the directives of a function are among those that it has in another file, with at least
their entries. -/
def GainsEntries (src src' : Source) (place : Nat → Nat) (f : Nat) : Prop :=
  ∀ p ∈ src.file.permissionsOf f, ∃ p' ∈ src'.file.permissionsOf (place f),
    ∀ e ∈ p.entries, ∃ e' ∈ p'.entries, e'.name = e.name ∧ e'.valid = e.valid

instance (src src' : Source) (place : Nat → Nat) (f : Nat) :
    Decidable (src.GainsEntries src' place f) :=
  inferInstanceAs (Decidable (∀ p ∈ src.file.permissionsOf f, _))

theorem GainsEntries.allows {place : Nat → Nat} {f : Nat} {name : String}
    (h : src.GainsEntries src' place f) (ha : src.Allows f name) : src'.Allows (place f) name := by
  obtain ⟨p, hp, e, he, hv, hname⟩ := ha
  obtain ⟨p', hp', hentries⟩ := h p hp
  obtain ⟨e', he', hname', hv'⟩ := hentries e he
  exact ⟨p', hp', e', he', hv'.trans hv, hname'.trans hname⟩

namespace SameCode

variable {comments : Bool} {place : Nat → Nat} {move : Int → Int}
  (h : src.SameCode src' comments place move)
include h

theorem declaredAtTop (ht : src.tree.DeclaredAtTop) : src'.tree.DeclaredAtTop := by
  intro f' _ hd p' hp'
  have hf' : src'.tree.isFunction f' := by
    rw [Tree.isFunction, Kind.isFunction_eq, hd, Bool.true_or]
  obtain ⟨f, hf, rfl⟩ := h.exists_place (Tree.mem_parts_of_isFunction hf' comments)
  rw [h.isFunctionDeclaration_eq hf] at hd
  rw [(h.found f hf).parent, Option.mem_def, Option.map_eq_some_iff] at hp'
  obtain ⟨p, hp, rfl⟩ := hp'
  have hfound := h.found p (h.above f hf p hp)
  obtain ⟨hfile, hroot⟩ := ht f (Tree.mem_parts.1 hf).1 hd p hp
  rw [hfound.parent, hroot, ← Kind.isFile_shape, hfound.shape, Kind.isFile_shape]
  exact ⟨hfile, rfl⟩

/-- Whether a write is disallowed in a file with other comments. -/
theorem disallowed_iff_forall (ht : src.tree.DeclaredAtTop) {params : Bool} {o node : Nat}
    (hnode : node ∈ src.tree.parts comments) :
    src'.disallowed params o (place node) ↔ src.presumed params o ∧
      ∀ f ∈ src.tree.enclosing node, src.tree.isFunction f →
        ¬ src'.Allows (place f) (src.nameOf o) := by
  rw [Source.disallowed_iff_forall (h.declaredAtTop ht), h.presumed_eq, h.enclosing_eq hnode,
    h.nameOf_eq, List.forall_mem_map]
  refine and_congr_right fun _ => forall_congr' fun f => forall_congr' fun hf => ?_
  rw [h.isFunction_eq (h.mem_parts_of_mem_enclosing hnode hf)]

/-- What is disallowed although directives have gained entries was so before. -/
theorem disallowed_of_gainsEntries (ht : src.tree.DeclaredAtTop) {params : Bool} {o node : Nat}
    (hnode : node ∈ src.tree.parts comments)
    (hgains : ∀ f, src.tree.isFunction f → src.GainsEntries src' place f)
    (hd : src'.disallowed params o (place node)) : src.disallowed params o node := by
  rw [h.disallowed_iff_forall ht hnode] at hd
  rw [Source.disallowed_iff_forall ht]
  refine ⟨hd.1, fun f hf hfunction hallows => ?_⟩
  exact hd.2 f hf hfunction ((hgains f hfunction).allows hallows)

/-- Only the functions around a write and whether they allow its name decide about it. -/
theorem disallowed_eq (ht : src.tree.DeclaredAtTop) {params : Bool} {o node : Nat}
    (hnode : node ∈ src.tree.parts comments)
    (hsame : ∀ f ∈ src.tree.enclosing node, src.tree.isFunction f →
      (src'.Allows (place f) (src.nameOf o) ↔ src.Allows f (src.nameOf o))) :
    src'.disallowed params o (place node) = src.disallowed params o node := by
  rw [Bool.eq_iff_iff, h.disallowed_iff_forall ht hnode, Source.disallowed_iff_forall ht]
  refine and_congr_right fun _ => forall_congr' fun f => forall_congr' fun hf => ?_
  exact forall_congr' fun hfunction => not_congr (hsame f hf hfunction)

end SameCode

/-- An uncancelled verdict is that of the file, whatever has been asked before. -/
theorem verdict_afterAll (src : Source) (params : Bool) (questions : List Classifier.Question)
    (o node : Nat) :
    (((Classifier.ofSource src params).afterAll questions).verdict false o node).1 =
      .ok (src.disallowed params o node) :=
  ((Classifier.classifies_afterAll src params questions).verdict false o node).1

/-- A write to a presumed variable is disallowed exactly if no function around it, declared or
literal, has a directive with a valid entry of its name, whatever has been asked before. When
comments are exchanged, entries that directives gain never make an allowed write disallowed, and the
verdict stays the same unless a function around the write begins or ceases to allow the name. -/
theorem directives_act_on_enclosed (h : src.tree.DeclaredAtTop) (params : Bool)
    (questions : List Classifier.Question) (o node : Nat) :
    let c := (Classifier.ofSource src params).afterAll questions
    (∃ b, (c.verdict false o node).1 = .ok b ∧ (b ↔ (c.presumed o).1 ∧
      ∀ f ∈ src.tree.enclosing node, src.tree.isFunction f → ¬ src.Allows f (src.nameOf o))) ∧
    ∀ (src' : Source) (comments : Bool) (place : Nat → Nat) (move : Int → Int)
      (questions' : List Classifier.Question),
      src.SameCode src' comments place move → node ∈ src.tree.parts comments →
      let c' := (Classifier.ofSource src' params).afterAll questions'
      ((∀ f, src.tree.isFunction f → src.GainsEntries src' place f) →
        (c.verdict false o node).1 = .ok false → (c'.verdict false o (place node)).1 = .ok false) ∧
      ((∀ f ∈ src.tree.enclosing node, src.tree.isFunction f →
          (src'.Allows (place f) (src.nameOf o) ↔ src.Allows f (src.nameOf o))) →
        (c'.verdict false o (place node)).1 = (c.verdict false o node).1) := by
  have hpresumed := ((Classifier.classifies_afterAll src params questions).presumed o).1
  simp only [verdict_afterAll, hpresumed, Except.ok.injEq]
  refine ⟨⟨_, rfl, disallowed_iff_forall h⟩, fun src' comments place move questions' hs hnode => ?_⟩
  refine ⟨fun hgains hallowed => ?_, fun hsame => hs.disallowed_eq h hnode hsame⟩
  rw [← Bool.not_eq_true] at hallowed ⊢
  exact fun hd => hallowed (hs.disallowed_of_gainsEntries h hnode hgains hd)

/-- The literal with a directive for `x`. -/
def allowingLiteral : Source :=
  commentedLiteral "//reassignguard:allow x\n\t" [reassigns, allowX]

/-- The edit that adds `g` to the directive. -/
def addingG : Edit := .insertion 63 "g, "

/-- The literal with a directive for `g` and `x`. -/
def allowingBoth : Source :=
  commentedLiteral "//reassignguard:allow g, x\n\t"
    [reassigns, ⟨⟨41, 67⟩, "//reassignguard:allow g, x"⟩]

theorem sameCode_allowingBoth : allowingLiteral.SameCode allowingBoth true id addingG.moved where
  mono := by decide +kernel
  zero := by decide
  bounds := by decide +kernel
  parts := by decide +kernel
  found := by decide +kernel
  above := by decide +kernel
  objects := by decide +kernel
  widths := by decide +kernel
  parsed := nofun

/-- The directive above the literal allows the write to `x` in it, also after it has gained `g`, and
does not reach the call of `g` behind it. -/
theorem directives_act_on_enclosed_allowingLiteral :
    let c := (Classifier.ofSource allowingLiteral true).afterAll
      [.permissions 9, .verdict false 1 21]
    let c' := (Classifier.ofSource allowingBoth true).afterAll [.verdict false 2 17]
    allowingLiteral.tree.DeclaredAtTop ∧
      (c.verdict false 2 17).1 = .ok false ∧ (c'.verdict false 2 17).1 = .ok false ∧
      (c.verdict false 1 21).1 = .ok true ∧ (c'.verdict false 1 21).1 = .ok true := by
  have h : allowingLiteral.tree.DeclaredAtTop := by decide +kernel
  have hgains : ∀ f < 22, allowingLiteral.GainsEntries allowingBoth id f := by decide +kernel
  have hsame : ∀ f ∈ allowingLiteral.tree.enclosing 21, allowingLiteral.tree.isFunction f →
      (allowingBoth.Allows f "g" ↔ allowingLiteral.Allows f "g") := by
    decide +kernel
  obtain ⟨⟨b, hb, hx⟩, hgain⟩ :=
    directives_act_on_enclosed h true [.permissions 9, .verdict false 1 21] 2 17
  obtain ⟨⟨b', hb', hg⟩, hkeep⟩ :=
    directives_act_on_enclosed h true [.permissions 9, .verdict false 1 21] 1 21
  obtain rfl : b = false := by
    rw [← Bool.not_eq_true, hx]
    exact fun hall => hall.2 9 (by decide +kernel) rfl (by decide +kernel)
  obtain rfl : b' = true := hg.2 (by decide +kernel)
  have hx' := (hgain _ _ _ _ [.verdict false 2 17] sameCode_allowingBoth (by decide +kernel)).1
    (fun f hf => hgains f (Tree.lt_size_of_isFunction hf)) hb
  have hg' := (hkeep _ _ _ _ [.verdict false 2 17] sameCode_allowingBoth (by decide +kernel)).2 hsame
  exact ⟨h, hb, hx', hb', hg'.trans hb'⟩

end Source

end AssignOnce
