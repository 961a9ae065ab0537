import AssignOnce.Proofs.Fix.NewVariable
import AssignOnce.Proofs.Sample

/-!
# New variables capture nothing

A fix with a new variable redirects to it exactly the later references of the function to the old
one. All of them lie in the scope of the new variable and find it there under its name, and no name
of the package loses its meaning by the declaration (`Source.newVariable_captures_nothing`).
-/

namespace AssignOnce

namespace Source

variable {src : Source}

theorem escapes_eq_false_iff {s : Nat} {e : Edit} : src.escapes s e = false ↔
    (src.package.scopes.scope s).span.start ≤ e.start ∧
      e.rangeStop ≤ (src.package.scopes.scope s).span.stop := by
  simp [escapes]

/-- An edit of an identifier that stays in a scope: the identifier lies in the scope, and is looked
up from there or from below. -/
theorem exists_innermostAt?_of_escapes (hs : src.package.scopes.WellFormed) {s i : Nat}
    {name : String} {p : Int} (hp : src.package.scopes.innermostAt? p = some s)
    (hi : src.tree.start i < src.tree.stop i)
    (he : src.escapes s (.replacement (src.tree.span i) name) = false) :
    (src.package.scopes.scope s).span.start ≤ src.tree.start i ∧
      src.tree.stop i ≤ (src.package.scopes.scope s).span.stop ∧
      ∃ q, src.package.scopes.innermostAt? (src.tree.start i) = some q ∧
        s ∈ src.package.scopes.chain q := by
  obtain ⟨hstart, hstop⟩ := escapes_eq_false_iff.1 he
  simp only [Edit.replacement, Edit.rangeStop] at hstart hstop
  obtain ⟨hs0, -, h0⟩ := ScopeForest.innermostAt?_spec hp
  unfold Tree.start Tree.stop at hi ⊢
  have hin : (src.package.scopes.scope s).span.contains (src.tree.span i).start := by
    rw [Span.contains_iff]
    omega
  exact ⟨by omega, by omega, hs.exists_innermostAt? hs0 h0 hin⟩

/-- What a fix with a new variable replaces, apart from the edits of its declaration, are the
identifiers of the innermost function around the write, or of the file, that refer to the old
variable behind the declaration. Each of them lies in the scope of the new variable and leads to it
under the new name. The name is declared neither in that scope nor around it nor below it, so that
every name of the package keeps its meaning. -/
theorem newVariable_captures_nothing (ht : src.tree.WellFormed) (hn : src.tree.Nested)
    (hs : src.package.scopes.WellFormed) {cancelled : Bool} {n : Namer} {w : Write}
    {edits : List Edit} (h : (src.newVariable cancelled n w).1 = .ok edits) :
    ∃ o place name d refs, src.written? w = .ok o ∧ src.placeOf w (src.nameOf o) = .ok place ∧
      src.declare w o place name = .ok d ∧
      refs = src.laterReferences ((src.tree.function? w.target).getD 0) o d.start ∧
      edits = d.edits ++ refs.map (fun i => .replacement (src.tree.span i) name) ∧
      (∀ i ∈ refs,
        (src.package.scopes.scope place.scope).span.start ≤ src.tree.start i ∧
        src.tree.stop i ≤ (src.package.scopes.scope place.scope).span.stop ∧
        ∃ q, src.package.scopes.innermostAt? (src.tree.start i) = some q ∧
          place.scope ∈ src.package.scopes.chain q ∧
          (src.package.scopes.withName place.scope name).lookup? q name =
            some (.scope place.scope)) ∧
      src.package.scopes.Fresh place.scope name ∧
      ∀ q m b, src.package.scopes.lookup? q m = some b →
        (src.package.scopes.withName place.scope name).lookup? q m = some b := by
  obtain ⟨o, place, name, n', d, es, ho, hplace, hname, hd, hes, rfl⟩ := newVariable_eq_ok h
  have hscope := innermostAt?_of_placeOf hplace
  have hlt := (ScopeForest.innermostAt?_spec hscope).2.1
  have hfresh := Namer.fresh_of_unique hname
  obtain ⟨rfl, hinside⟩ := references_eq_ok hes
  obtain ⟨⟨m, hm⟩, -⟩ := written?_eq_ok ho
  have hroot := referenceRoot_eq ht (Tree.lt_size_of_identName? hm)
  rw [edits_renameFor hn] at hinside ⊢
  rw [hroot] at hinside ⊢
  refine ⟨o, place, name, d, _, ho, hplace, hd, rfl, rfl, fun i hi => ?_, hfresh,
    fun q m b => hfresh.lookup?_withName hlt⟩
  obtain ⟨hsub, -, huses, -⟩ := mem_laterReferences.1 hi
  have hne := hn.referring i (Tree.mem_subtree.1 hsub).1 (by rw [huses]; rfl)
  obtain ⟨hstart, hstop, q, hq, hsq⟩ := exists_innermostAt?_of_escapes hs hscope hne
    (hinside _ (List.mem_map_of_mem hi))
  exact ⟨hstart, hstop, q, hq, hsq, hfresh.lookup?_withName_self hlt hsq⟩

/-- A function in which the name after that of a reassigned variable is declared further out:

    x1 := 0
    if true {
      x := 0
      x = 1
      _, _ = x, x1
    }
-/
def innerBlock : Source :=
  .ofFile
    (Utf8.encode "package p\n\nfunc f() \x7b\n\tx1 := 0\n\tif true \x7b\n\t\tx := 0\n\t\tx = 1\n" ++
      Utf8.encode "\t\t_, _ = x, x1\n\t\x7d\n\x7d\n")
    []
    #[
      ⟨"f", 7, .other⟩,
      ⟨"x1", 1, .variable ⟨24, false, true, .scope 2⟩⟩,
      ⟨"true", 8, .other⟩,
      ⟨"x", 1, .variable ⟨45, false, true, .scope 4⟩⟩]
    #[
      ⟨.predeclared, ⟨0, 0⟩, ["f"]⟩,
      ⟨.scope 0, ⟨1, 80⟩, []⟩,
      ⟨.scope 1, ⟨12, 79⟩, ["x1"]⟩,
      ⟨.scope 2, ⟨33, 77⟩, []⟩,
      ⟨.scope 3, ⟨41, 77⟩, ["x"]⟩]
    #[
      ⟨.file none, none, .other, ⟨1, 79⟩, none⟩,
      ⟨.ident "p" .noObject none, some 0, .name, ⟨9, 10⟩, none⟩,
      ⟨.funcDecl true none, some 0, .decls, ⟨12, 79⟩, none⟩,
      ⟨.ident "f" (.object 0) none, some 2, .name, ⟨17, 18⟩, none⟩,
      ⟨.funcType, some 2, .type, ⟨12, 20⟩, none⟩,
      ⟨.fieldList, some 4, .params, ⟨18, 20⟩, none⟩,
      ⟨.blockStmt 21, some 2, .body, ⟨21, 79⟩, none⟩,
      ⟨.assignStmt .define 27, some 6, .list, ⟨24, 31⟩, none⟩,
      ⟨.ident "x1" (.object 1) none, some 7, .lhs, ⟨24, 26⟩, none⟩,
      ⟨.basicLit .integer, some 7, .rhs, ⟨30, 31⟩, some 1⟩,
      ⟨.ifStmt, some 6, .list, ⟨33, 77⟩, none⟩,
      ⟨.ident "true" .nothing (some 2), some 10, .other, ⟨36, 40⟩, none⟩,
      ⟨.blockStmt 41, some 10, .body, ⟨41, 77⟩, none⟩,
      ⟨.assignStmt .define 47, some 12, .list, ⟨45, 51⟩, none⟩,
      ⟨.ident "x" (.object 3) none, some 13, .lhs, ⟨45, 46⟩, none⟩,
      ⟨.basicLit .integer, some 13, .rhs, ⟨50, 51⟩, some 1⟩,
      ⟨.assignStmt .assign 56, some 12, .list, ⟨54, 59⟩, none⟩,
      ⟨.ident "x" .nothing (some 3), some 16, .lhs, ⟨54, 55⟩, none⟩,
      ⟨.basicLit .integer, some 16, .rhs, ⟨58, 59⟩, some 1⟩,
      ⟨.assignStmt .assign 67, some 12, .list, ⟨62, 74⟩, none⟩,
      ⟨.ident "_" .noObject none, some 19, .lhs, ⟨62, 63⟩, none⟩,
      ⟨.ident "_" .noObject none, some 19, .lhs, ⟨65, 66⟩, none⟩,
      ⟨.ident "x" .nothing (some 3), some 19, .rhs, ⟨69, 70⟩, some 1⟩,
      ⟨.ident "x1" .nothing (some 1), some 19, .rhs, ⟨72, 74⟩, some 1⟩]

/-- The new variable is `x2`, and the reference behind its declaration is redirected to it. -/
theorem newVariable_captures_nothing_innerBlock :
    (innerBlock.newVariable false (.ofLimit 0) ⟨.assign, 16, 17⟩).1 =
        .ok [⟨54, some 55, "x2"⟩, ⟨56, some 57, ":="⟩, ⟨69, some 70, "x2"⟩] ∧
      ∃ s name, innerBlock.package.scopes.Fresh s name ∧
        ∀ q m b, innerBlock.package.scopes.lookup? q m = some b →
          (innerBlock.package.scopes.withName s name).lookup? q m = some b := by
  have h : (innerBlock.newVariable false (.ofLimit 0) ⟨.assign, 16, 17⟩).1 =
      .ok [⟨54, some 55, "x2"⟩, ⟨56, some 57, ":="⟩, ⟨69, some 70, "x2"⟩] := by decide +kernel
  obtain ⟨-, place, name, -, -, -, -, -, -, -, -, hfresh, hkeeps⟩ :=
    newVariable_captures_nothing (by decide +kernel) (by decide +kernel) (by decide +kernel) h
  exact ⟨h, place.scope, name, hfresh, hkeeps⟩

end Source

end AssignOnce
