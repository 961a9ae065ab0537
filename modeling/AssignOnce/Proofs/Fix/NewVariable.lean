import AssignOnce.Proofs.Fix.FreshName
import AssignOnce.Proofs.Tree.Layout

/-!
# What a fix with a new variable consists of

`Source.newVariable_eq_ok` takes a fix apart: the variable that is written, the place and the name
of the new one, the declaration, and the edits of the references. The references are the later
identifiers of the function that refer to the variable (`Source.laterReferences`), and the name is
fresh for the scope of the place (`Namer.fresh_of_unique`).
-/

namespace AssignOnce

namespace Source

variable {src : Source}

/-- Whether an identifier refers to a variable by its name, is not selected from anything, and
starts at a position or behind it. -/
def IsLaterReference (src : Source) (o : Nat) (start : Int) (i : Nat) : Prop :=
  (src.tree.kind i).identName? = some (src.nameOf o) ∧ (src.tree.kind i).uses? = some o ∧
    ¬ (src.tree.parentKind? i = some .selectorExpr ∧ src.tree.field i = .sel) ∧
    start ≤ src.tree.start i

instance (o : Nat) (start : Int) (i : Nat) : Decidable (src.IsLaterReference o start i) :=
  inferInstanceAs (Decidable (_ ∧ _))

/-- The identifiers below a node that refer to a variable at a position or behind it. -/
def laterReferences (src : Source) (root o : Nat) (start : Int) : List Nat :=
  (src.tree.subtree root).filter fun i => src.IsLaterReference o start i

theorem mem_laterReferences {root o i : Nat} {start : Int} :
    i ∈ src.laterReferences root o start ↔
      i ∈ src.tree.subtree root ∧ src.IsLaterReference o start i := by
  simp [laterReferences]

/-! ## Taking a fix apart -/

theorem newVariable_eq_ok {cancelled : Bool} {n : Namer} {w : Write} {edits : List Edit}
    (h : (src.newVariable cancelled n w).1 = .ok edits) :
    ∃ o place name n' d refs, src.written? w = .ok o ∧ src.placeOf w (src.nameOf o) = .ok place ∧
      n.unique src.package.scopes (src.nameOf o) place.scope = .ok (name, n') ∧
      src.declare w o place name = .ok d ∧
      src.references cancelled w o place.scope name d.start = .ok refs ∧
      edits = d.edits ++ refs := by
  unfold newVariable at h
  split at h
  · cases h
  · rename_i o ho
    split at h
    · cases h
    · rename_i place hplace
      split at h
      · cases h
      · rename_i name n' hname
        simp only [replaceBy] at h
        split at h
        · cases h
        · rename_i d hd
          cases hr : src.references cancelled w o place.scope name d.start with
          | error e => rw [hr] at h; cases h
          | ok refs =>
            rw [hr] at h
            exact ⟨o, place, name, n', d, refs, ho, hplace, hname, hd, hr, (Except.ok.inj h).symm⟩

theorem written?_eq_ok {w : Write} {o : Nat} (h : src.written? w = .ok o) :
    (∃ name, (src.tree.kind w.target).identName? = some name) ∧
      (src.tree.kind w.target).uses? = some o := by
  unfold written? at h
  split at h
  · cases h
  · rename_i name hname
    split at h
    · rename_i o' ho
      obtain rfl := Except.ok.inj h
      refine ⟨⟨name, hname⟩, ?_⟩
      unfold variableAt? at ho
      split at ho
      · rename_i u hu
        split at ho
        · rw [hu]
          exact ho
        · cases ho
      · cases ho
    · cases h

theorem references_eq_ok {cancelled : Bool} {w : Write} {o s : Nat} {name : String} {start : Int}
    {refs : List Edit} (h : src.references cancelled w o s name start = .ok refs) :
    refs = (src.renameFor w o name start).edits src.tree (src.referenceRoot w) ∧
      ∀ e ∈ refs, src.escapes s e = false := by
  unfold references Rename.editsUnless at h
  split at h
  · cases h
  · rename_i edits he
    split at h
    · cases h
    · rename_i hf
      obtain rfl := Except.ok.inj h
      split at he
      · cases he
      · exact ⟨(Except.ok.inj he).symm, by simpa using List.find?_eq_none.1 hf⟩

theorem placeAt_eq_ok {stmt : Nat} {name : String} {place : Place}
    (h : src.placeAt stmt name = .ok place) : place.stmt = stmt ∧
      src.package.scopes.innermostAt? (src.tree.start stmt) = some place.scope := by
  unfold placeAt at h
  split at h
  · obtain rfl := Except.ok.inj h
    exact ⟨rfl, ‹_›⟩
  · cases h

/-- The new variable is declared at a statement, in the innermost scope there. -/
theorem innermostAt?_of_placeOf {w : Write} {name : String} {place : Place}
    (h : src.placeOf w name = .ok place) :
    src.package.scopes.innermostAt? (src.tree.start place.stmt) = some place.scope := by
  have of_placeAt : ∀ {stmt}, src.placeAt stmt name = .ok place →
      src.package.scopes.innermostAt? (src.tree.start place.stmt) = some place.scope := by
    intro stmt h
    obtain ⟨e, hs⟩ := placeAt_eq_ok h
    rw [e]
    exact hs
  unfold placeOf at h
  split at h
  · split at h
    · exact of_placeAt h
    · cases h
  · exact of_placeAt h

/-- A declaration with a type spells the type of the variable. -/
theorem exists_type_of_map_declaredType {stmt o : Nat} {form : String → Declaration}
    {d : Declaration} (h : (src.declaredType stmt o).map form = .ok d) :
    ∃ type, src.spellType (src.typeOf o) = .ok type ∧ d = form type := by
  unfold declaredType at h
  split at h
  · cases hs : src.spellType (src.typeOf o) with
    | error e => rw [hs] at h; cases h
    | ok type =>
      rw [hs] at h
      exact ⟨type, rfl, (Except.ok.inj h).symm⟩
  · cases h

/-! ## References -/

/-- References are looked for in the innermost function around a write, or else in the file. -/
theorem referenceRoot_eq (ht : src.tree.WellFormed) {w : Write} (hw : w.target < src.tree.size) :
    src.referenceRoot w = (src.tree.function? w.target).getD 0 := by
  have hroot : src.tree.root w.target = 0 := by
    obtain ⟨hmem, hup⟩ := src.tree.ascent.getLastD_spec w.target w.target
    -- only the file has nothing above it
    have hlt := Nat.lt_of_le_of_lt (Tree.le_of_mem_enclosing hmem) hw
    rcases Tree.mem_enclosing_iff.1 (ht.root_mem_enclosing hlt) with e | ⟨p, hp, -⟩
    · exact e.symm
    · rw [hup] at hp
      cases hp
  rw [referenceRoot, hroot]

/-- No identifier that refers to something reaches behind the node in which it is looked for, so the
end of that node cuts off none. -/
theorem applies_renameFor (hn : src.tree.Nested) {w : Write} {o i : Nat} {name : String}
    {start : Int} (hi : i ∈ src.tree.subtree (src.referenceRoot w)) :
    (src.renameFor w o name start).applies src.tree i =
      decide (src.IsLaterReference o start i) := by
  obtain ⟨hlt, hmem⟩ := Tree.mem_subtree.1 hi
  rw [Bool.eq_iff_iff, decide_eq_true_iff]
  simp only [Rename.applies, Rename.covers, Rename.refers, renameFor, IsLaterReference,
    Bool.and_eq_true, Bool.or_eq_true, beq_iff_eq, Bool.not_eq_true', Bool.and_eq_false_iff,
    beq_eq_false_iff_ne]
  constructor
  · rintro ⟨⟨hname, hstart, -⟩, hsel, huses⟩
    exact ⟨hname, huses, fun h => hsel.elim (absurd h.1) (absurd h.2),
      of_decide_eq_true hstart⟩
  · rintro ⟨hname, huses, hsel, hstart⟩
    have hlast := hn.referring i hlt (by rw [huses]; rfl)
    have hstop := (hn.inside_of_mem_enclosing hmem (Kind.isComment_of_identName? hname)).2.2
    exact ⟨⟨hname, decide_eq_true hstart, .inr (decide_eq_true (by omega))⟩,
      Decidable.not_and_iff_or_not.1 hsel, huses⟩

theorem edits_renameFor (hn : src.tree.Nested) (w : Write) (o : Nat) (name : String)
    (start : Int) : (src.renameFor w o name start).edits src.tree (src.referenceRoot w) =
      (src.laterReferences (src.referenceRoot w) o start).map fun i =>
        .replacement (src.tree.span i) name := by
  rw [Rename.edits, Rename.renamed, laterReferences,
    List.filter_congr fun i hi => src.applies_renameFor hn hi]
  rfl

end Source

end AssignOnce
