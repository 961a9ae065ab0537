import AssignOnce.Proofs.Analysis.Writes
import AssignOnce.Proofs.Fix.NewVariable
import AssignOnce.Proofs.Sample

/-!
# Assignments that become declarations

When `a, x = …` becomes `a, x1 := …`, only `x1` is to be a new variable. A name on the left of `:=`
stands for a variable that exists if that variable is declared in the scope of the statement, and
for a new one otherwise (`Source.defined`); on the left of `=` it stands for what it refers to
(`Source.assigned`). Left sides that stand for the same in both keep their meaning, and so does by
mistake a blank one in parentheses, which cannot stand on the left of `:=`
(`Source.keepsMeaning_iff`).

* `Source.defines_iff`: when an assignment becomes a declaration, and that the new variable is
  declared in front of it otherwise.
-/

namespace AssignOnce

/-- What the left side of an assignment or of a declaration stands for. -/
inductive LeftSide where
  | blank
  /-- A variable that exists. -/
  | variable (o : Nat)
  /-- A variable that the statement declares. -/
  | new
  /-- Anything else that can be assigned to. -/
  | other
  /-- Nothing: the statement is not allowed. -/
  | illegal
  deriving DecidableEq, Repr

namespace Source

variable {src : Source} {s e : Nat}

/-! ## Left sides -/

/-- What an expression on the left of `=` stands for. -/
def assigned (src : Source) (e : Nat) : LeftSide :=
  if src.tree.isBlankIdent e then .blank
  else
    match src.variableAt? (src.tree.unparen e) with
    | some o => .variable o
    | none => .other

/-- What an expression on the left of `:=` stands for if the statement declares in a scope: only
names can stand there. -/
def defined (src : Source) (s e : Nat) : LeftSide :=
  match (src.tree.kind e).identName? with
  | none => .illegal
  | some name =>
    if name = blankName then .blank
    else
      match src.variableAt? e with
      | some o =>
        if (src.package.asVariable? o).any fun v => v.home == .scope s then .variable o else .new
      | none => .new

theorem variableAt?_eq_none (h : (src.tree.kind e).identName? = none) :
    src.variableAt? e = none := by
  unfold variableAt?
  cases hk : src.tree.kind e with
  | ident name d u => rw [hk] at h; cases h
  | _ => rfl

/-- An expression that is no name keeps its meaning only if it is blank. -/
theorem keepsMeaning_of_not_name (h : (src.tree.kind e).identName? = none) :
    src.keepsMeaning s e = src.tree.isBlankIdent e := by
  simp [keepsMeaning, variableAt?_eq_none h]

/-- A left side is taken to keep its meaning if it stands for the same on the left of `:=` as on the
left of `=`, or is blank on the left of `=` and not allowed on the left of `:=`. -/
theorem keepsMeaning_iff :
    src.keepsMeaning s e ↔ src.defined s e = src.assigned e ∨
      src.defined s e = .illegal ∧ src.assigned e = .blank := by
  cases hname : (src.tree.kind e).identName? with
  | none =>
    have hdefined : src.defined s e = .illegal := by simp [defined, hname]
    rw [keepsMeaning_of_not_name hname, hdefined]
    unfold assigned
    split
    · simp [*]
    · split <;> simp [*]
  | some name =>
    have hblank : src.tree.isBlankIdent e = (name == blankName) := by
      simp [Tree.isBlankIdent, Tree.unparen_of_identName? hname, hname]
    simp only [keepsMeaning, defined, assigned, hname, hblank, Tree.unparen_of_identName? hname]
    by_cases hb : name = blankName
    · simp [hb]
    · cases src.variableAt? e with
      | none => simp [hb]
      | some o => simp [hb]

/-! ## Declarations -/

variable {stmt k o : Nat} {name : String}

/-- An assignment can become a declaration in a scope if all left sides but the one with the index
are taken to keep their meaning. -/
theorem definable_iff :
    src.definable stmt k s ↔
      ∀ i e, (src.tree.lhs stmt)[i]? = some e → i ≠ k → src.keepsMeaning s e := by
  simp only [definable, List.all_eq_true, Prod.forall, List.mem_zipIdx_iff_getElem?,
    Bool.or_eq_true, beq_iff_eq, or_iff_not_imp_left]
  exact ⟨fun h i e he => h e i he, fun h e i he => h i e he⟩

/-- A declaration for one left side of `a, x = …` is the assignment itself, or stands in front of
it and spells the type. -/
theorem declareTuple_eq_ok {d : Declaration} (hop : (src.tree.assignOperator stmt).1 ≠ .define)
    (h : src.declareTuple stmt k o s name = .ok d) :
    d.start = src.tree.stop stmt ∧
      if src.infers stmt k o ∧ src.definable stmt k s then
        d.edits = [.replacement (src.tree.span (src.tree.lhsAt stmt k)) name,
          src.tree.defineEdit stmt]
      else
        ∃ type, src.spellType (src.typeOf o) = .ok type ∧
          d.edits = [.insertion (src.tree.start stmt) ("var " ++ name ++ " " ++ type ++ "\n" ++
              src.file.indent (src.tree.start stmt)),
            .replacement (src.tree.span (src.tree.lhsAt stmt k)) name] := by
  unfold declareTuple at h
  simp only [beq_eq_false_iff_ne.2 hop, Bool.and_false, Bool.false_eq_true, if_false] at h
  split at h
  · rename_i hdef
    cases h
    exact ⟨rfl, by rw [if_pos (by simpa using hdef)]⟩
  · rename_i hdef
    obtain ⟨type, htype, rfl⟩ := exists_type_of_map_declaredType h
    rw [if_neg (by simpa using hdef)]
    exact ⟨rfl, type, htype, rfl⟩

/-- Whether an assignment with several left sides can become a declaration in a scope that gives the
left side with an index the type of a variable, and all others stand for what they stood for. A
blank one in parentheses counts as such. -/
structure Redefines (src : Source) (stmt k o s : Nat) : Prop where
  type : src.package.types.identical (src.assignedType? stmt k) (some (src.typeOf o))
  others {i e : Nat} : (src.tree.lhs stmt)[i]? = some e → i ≠ k →
    src.defined s e = src.assigned e ∨ src.defined s e = .illegal ∧ src.assigned e = .blank

theorem redefines_iff :
    src.Redefines stmt k o s ↔ src.infers stmt k o ∧ src.definable stmt k s := by
  simp only [definable_iff, keepsMeaning_iff]
  exact ⟨fun h => ⟨h.type, fun i e => h.others⟩, fun h => ⟨h.1, fun {i e} => h.2 i e⟩⟩

theorem ne_define_of_unique {n n' : Namer} {scopes : ScopeForest} {old : String}
    (h : n.unique scopes old s = .ok (name, n')) : name ≠ Operator.define.text := by
  obtain ⟨⟨k, -, -, -, -, rfl⟩, -⟩ := Namer.unique_eq_ok_iff.1 h
  obtain ⟨c, hc, hdigit⟩ := Namer.exists_isDigit_candidate old k
  intro e
  rw [e] at hc
  have hnone : Operator.define.text.toList.any Char.isDigit = false := by decide
  exact List.any_eq_false.1 hnone c hc hdigit

theorem text_of_mem_renameFor {w : Write} {start : Int} {root : Nat} {edit : Edit}
    (h : edit ∈ (src.renameFor w o name start).edits src.tree root) : edit.text = name := by
  obtain ⟨i, -, rfl⟩ := List.mem_map.1 h
  rfl

/-- The fix for one left side of `a, x = …`. It turns the assignment into a declaration exactly if
that gives `x1` the type of `x`, as far as the types of the right sides tell, and all other left
sides stand for what they stood for or are blank ones in parentheses. Otherwise the sign `=` stays,
and `x1` is declared with the type of `x` in front of the assignment. In both cases the name is a
fresh one for the scope of the assignment, and nothing else is done but to rename the later
references. -/
theorem defines_iff {cancelled : Bool} {n : Namer} {w : Write} {pos : Int} {edits : List Edit}
    (hk : w.kind = .tuple k) (hop : src.tree.kind w.stmt = .assignStmt .assign pos)
    (h : (src.newVariable cancelled n w).1 = .ok edits) :
    ∃ o s name element refs, src.written? w = .ok o ∧
      src.package.scopes.innermostAt? (src.tree.start w.stmt) = some s ∧
      src.package.scopes.Fresh s name ∧
      element = .replacement (src.tree.span (src.tree.lhsAt w.stmt k)) name ∧
      refs = (src.renameFor w o name (src.tree.stop w.stmt)).edits src.tree (src.referenceRoot w) ∧
      (src.Redefines w.stmt k o s ∧ edits = element :: src.tree.defineEdit w.stmt :: refs ∨
        ¬ src.Redefines w.stmt k o s ∧ (∀ e ∈ edits, e.text ≠ Operator.define.text) ∧
          ∃ type, src.spellType (src.typeOf o) = .ok type ∧
            edits = .insertion (src.tree.start w.stmt) ("var " ++ name ++ " " ++ type ++ "\n" ++
              src.file.indent (src.tree.start w.stmt)) :: element :: refs) := by
  obtain ⟨o, place, name, n', d, refs, ho, hplace, hname, hd, hrefs, rfl⟩ := newVariable_eq_ok h
  rw [placeOf, hk] at hplace
  rw [declare, hk] at hd
  have hassign : (src.tree.assignOperator w.stmt).1 ≠ .define := by simp [Tree.assignOperator, hop]
  obtain ⟨-, hscope⟩ := placeAt_eq_ok hplace
  obtain ⟨hstart, hedits⟩ := declareTuple_eq_ok hassign hd
  obtain ⟨hrefs, -⟩ := references_eq_ok hrefs
  rw [hstart] at hrefs
  refine ⟨o, place.scope, name, _, refs, ho, hscope, Namer.fresh_of_unique hname, rfl, hrefs, ?_⟩
  simp only [redefines_iff]
  split at hedits
  · rename_i hdef
    exact .inl ⟨hdef, by rw [hedits]; rfl⟩
  · rename_i hdef
    obtain ⟨type, htype, hedits⟩ := hedits
    refine .inr ⟨hdef, ?_, type, htype, by rw [hedits]; rfl⟩
    intro e he
    rw [hedits] at he
    have hne := ne_define_of_unique hname
    rcases List.mem_append.1 he with he | he
    · simp only [List.mem_cons, List.not_mem_nil, or_false] at he
      rcases he with rfl | rfl
      · intro heq
        have hchars := congrArg String.toList heq
        simp [Edit.insertion, Operator.text] at hchars
      · exact hne
    · rw [text_of_mem_renameFor (hrefs ▸ he)]
      exact hne

/-- A function with two assignments to several left sides:

    x, y := 1, 2
    x, (_) = y, 3
    if true {
        y, x = x, y
        _, _ = x, y
    }
-/
def parenthesizedBlank : Source :=
  .ofFile
    (Utf8.encode "package p\n\nfunc f() \x7b\n\tx, y := 1, 2\n\tx, (_) = y, 3\n" ++
      Utf8.encode "\tif true \x7b\n\t\ty, x = x, y\n\t\t_, _ = x, y\n\t\x7d\n\x7d\n")
    []
    #[
      ⟨"f", 7, .other⟩,
      ⟨"x", 1, .variable ⟨24, false, true, .scope 2⟩⟩,
      ⟨"y", 1, .variable ⟨27, false, true, .scope 2⟩⟩,
      ⟨"true", 8, .other⟩]
    #[
      ⟨.predeclared, ⟨0, 0⟩, ["f"]⟩,
      ⟨.scope 0, ⟨1, 96⟩, []⟩,
      ⟨.scope 1, ⟨12, 95⟩, ["x", "y"]⟩,
      ⟨.scope 2, ⟨53, 93⟩, []⟩,
      ⟨.scope 3, ⟨61, 93⟩, []⟩]
    #[
      ⟨.file none, none, .other, ⟨1, 95⟩, none⟩,
      ⟨.ident "p" .noObject none, some 0, .name, ⟨9, 10⟩, none⟩,
      ⟨.funcDecl true none, some 0, .decls, ⟨12, 95⟩, none⟩,
      ⟨.ident "f" (.object 0) none, some 2, .name, ⟨17, 18⟩, none⟩,
      ⟨.funcType, some 2, .type, ⟨12, 20⟩, none⟩,
      ⟨.fieldList, some 4, .params, ⟨18, 20⟩, none⟩,
      ⟨.blockStmt 21, some 2, .body, ⟨21, 95⟩, none⟩,
      ⟨.assignStmt .define 29, some 6, .list, ⟨24, 36⟩, none⟩,
      ⟨.ident "x" (.object 1) none, some 7, .lhs, ⟨24, 25⟩, none⟩,
      ⟨.ident "y" (.object 2) none, some 7, .lhs, ⟨27, 28⟩, none⟩,
      ⟨.basicLit .integer, some 7, .rhs, ⟨32, 33⟩, some 1⟩,
      ⟨.basicLit .integer, some 7, .rhs, ⟨35, 36⟩, some 1⟩,
      ⟨.assignStmt .assign 45, some 6, .list, ⟨38, 51⟩, none⟩,
      ⟨.ident "x" .nothing (some 1), some 12, .lhs, ⟨38, 39⟩, none⟩,
      ⟨.parenExpr, some 12, .lhs, ⟨41, 44⟩, none⟩,
      ⟨.ident "_" .noObject none, some 14, .x, ⟨42, 43⟩, none⟩,
      ⟨.ident "y" .nothing (some 2), some 12, .rhs, ⟨47, 48⟩, some 1⟩,
      ⟨.basicLit .integer, some 12, .rhs, ⟨50, 51⟩, some 1⟩,
      ⟨.ifStmt, some 6, .list, ⟨53, 93⟩, none⟩,
      ⟨.ident "true" .nothing (some 3), some 18, .other, ⟨56, 60⟩, none⟩,
      ⟨.blockStmt 61, some 18, .body, ⟨61, 93⟩, none⟩,
      ⟨.assignStmt .assign 70, some 20, .list, ⟨65, 76⟩, none⟩,
      ⟨.ident "y" .nothing (some 2), some 21, .lhs, ⟨65, 66⟩, none⟩,
      ⟨.ident "x" .nothing (some 1), some 21, .lhs, ⟨68, 69⟩, none⟩,
      ⟨.ident "x" .nothing (some 1), some 21, .rhs, ⟨72, 73⟩, some 1⟩,
      ⟨.ident "y" .nothing (some 2), some 21, .rhs, ⟨75, 76⟩, some 1⟩,
      ⟨.assignStmt .assign 84, some 20, .list, ⟨79, 90⟩, none⟩,
      ⟨.ident "_" .noObject none, some 26, .lhs, ⟨79, 80⟩, none⟩,
      ⟨.ident "_" .noObject none, some 26, .lhs, ⟨82, 83⟩, none⟩,
      ⟨.ident "x" .nothing (some 1), some 26, .rhs, ⟨86, 87⟩, some 1⟩,
      ⟨.ident "y" .nothing (some 2), some 26, .rhs, ⟨89, 90⟩, some 1⟩]

/-- In the inner block `x` would be a new variable on the left of `:=`, so `y1` is declared in front
of the assignment. -/
theorem defines_iff_parenthesizedBlank :
    parenthesizedBlank.tree.kind 21 = .assignStmt .assign 70 ∧
      parenthesizedBlank.defined 4 23 = .new ∧ parenthesizedBlank.assigned 23 = .variable 1 ∧
      ∃ name type refs, parenthesizedBlank.spellType (parenthesizedBlank.typeOf 2) = .ok type ∧
        parenthesizedBlank.package.scopes.Fresh 4 name ∧
        (parenthesizedBlank.newVariable false (.ofLimit 0) ⟨.tuple 0, 21, 22⟩).1 =
          .ok (.insertion 65 ("var " ++ name ++ " " ++ type ++ "\n" ++ "\t\t") ::
            .replacement ⟨65, 66⟩ name :: refs) := by
  have hkind : parenthesizedBlank.tree.kind 21 = .assignStmt .assign 70 := by decide +kernel
  have hdefined : parenthesizedBlank.defined 4 23 = .new := by decide +kernel
  have hassigned : parenthesizedBlank.assigned 23 = .variable 1 := by decide +kernel
  have h : (parenthesizedBlank.newVariable false (.ofLimit 0) ⟨.tuple 0, 21, 22⟩).1 =
      .ok [.insertion 65 "var y1 int\n\t\t", .replacement ⟨65, 66⟩ "y1",
        .replacement ⟨89, 90⟩ "y1"] := by decide +kernel
  obtain ⟨o, s, name, element, refs, ho, hs, hfresh, rfl, -, hcases⟩ := defines_iff rfl hkind h
  have hwritten : parenthesizedBlank.written? ⟨.tuple 0, 21, 22⟩ = .ok 2 := by decide +kernel
  have hscope : parenthesizedBlank.package.scopes.innermostAt?
      (parenthesizedBlank.tree.start 21) = some 4 := by decide +kernel
  obtain rfl := Except.ok.inj (ho.symm.trans hwritten)
  obtain rfl := Option.some.inj (hs.symm.trans hscope)
  rcases hcases with ⟨hdef, -⟩ | ⟨-, -, type, htype, hedits⟩
  · have hother := hdef.others (i := 1) (e := 23) (by decide +kernel) (by decide)
    rw [hdefined, hassigned] at hother
    simp at hother
  · refine ⟨hkind, hdefined, hassigned, name, type, refs, htype, hfresh, h.trans ?_⟩
    exact congrArg _ hedits

/-- The assignment `x, (_) = y, 3` becomes a declaration, although `(_)` cannot stand on the left of
one. -/
theorem defines_parenthesizedBlank :
    parenthesizedBlank.tree.kind 12 = .assignStmt .assign 45 ∧
      parenthesizedBlank.tree.lhs 12 = [13, 14] ∧ parenthesizedBlank.tree.kind 14 = .parenExpr ∧
      parenthesizedBlank.defined 2 14 = .illegal ∧ parenthesizedBlank.assigned 14 = .blank ∧
      (parenthesizedBlank.newVariable false (.ofLimit 0) ⟨.tuple 0, 12, 13⟩).1 =
        .ok [.replacement ⟨38, 39⟩ "x1", .replacement ⟨45, 46⟩ ":=", .replacement ⟨68, 69⟩ "x1",
          .replacement ⟨72, 73⟩ "x1", .replacement ⟨86, 87⟩ "x1"] := by
  decide +kernel

end Source

end AssignOnce
