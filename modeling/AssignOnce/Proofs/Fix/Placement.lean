import AssignOnce.Proofs.Fix.Extent
import AssignOnce.Proofs.Sample

/-!
# Where declarations are inserted

A fix may insert a declaration on a line of its own (`Edit.InsertsLine`): in front of an assignment
with several left sides, or in front of the statement with a call for an argument. The line always
comes in front of an element of a list of statements around the write. The clauses of `switch` and
`select` are such elements as well, but no declaration can stand between them. The line is put there
exactly if the write stands in the head of a clause (`Source.line_before_clause_iff`).
-/

namespace AssignOnce

namespace Kind

/-- Whether a kind is a clause of `switch` or `select`. -/
def isClause : Kind → Bool
  | .caseClause _ | .commClause _ => true
  | _ => false

end Kind

namespace Edit

/-- Whether an edit inserts text with a line of its own, in place of nothing. -/
def InsertsLine (e : Edit) : Prop :=
  e.stop = none ∧ '\n' ∈ e.text.toList

instance (e : Edit) : Decidable e.InsertsLine :=
  inferInstanceAs (Decidable (_ ∧ _))

theorem not_insertsLine_replacement (s : Span) (text : String) :
    ¬ (replacement s text).InsertsLine := fun h => by cases h.1

theorem not_insertsLine_paren (p : Int) : ¬ (insertion p ")").InsertsLine :=
  fun h => absurd h.2 (show '\n' ∉ ")".toList by decide)

end Edit

/-! ## Statements of lists -/

namespace Tree

variable {t : Tree}

/-- Whether a node stands in the head of a clause: it is the clause or lies in it, but in none of
the statements of a list inside the clause. -/
def InClauseHead (t : Tree) (i : Nat) : Prop :=
  ∃ c ∈ t.enclosing i, (t.kind c).isClause ∧ t.inStatementList c ∧
    ∀ s ∈ t.enclosing i, t.inStatementList s → s ∈ t.enclosing c

instance (t : Tree) (i : Nat) : Decidable (t.InClauseHead i) :=
  inferInstanceAs (Decidable (∃ c ∈ t.enclosing i, _))

/-- The innermost element of a list around a node is a clause exactly if the node stands in the
head of a clause. -/
theorem isClause_iff_inClauseHead {i s : Nat} (hs : s ∈ t.enclosing i) (hin : t.inStatementList s)
    (hfirst : ∀ a ∈ t.enclosing i, t.inStatementList a → a ∈ t.enclosing s) :
    (t.kind s).isClause ↔ t.InClauseHead i := by
  constructor
  · intro hk
    exact ⟨s, hs, hk, hin, hfirst⟩
  · rintro ⟨c, hc, hk, hcin, hall⟩
    have hle := le_of_mem_enclosing (hfirst c hc hcin)
    have hge := le_of_mem_enclosing (hall s hs hin)
    obtain rfl := Nat.le_antisymm hle hge
    exact hk

/-- All elements of lists around a node lie around the statement of a list that is found for it. -/
theorem mem_enclosing_of_listStatement?_eq {i s a : Nat} (h : t.listStatement? i = some s)
    (ha : a ∈ t.enclosing i) (hin : t.inStatementList a) : a ∈ t.enclosing s :=
  t.ascent.mem_of_find? (find?_throughFirst (fun j hj => by simp [hj]) h) ha (by simp [hin])

end Tree

/-! ## Inserted lines -/

namespace Source

variable {src : Source} {o : Nat} {name : String} {d : Declaration} {e : Edit}

theorem not_insertsLine_declareAssign {stmt : Nat} (hd : src.declareAssign stmt o name = .ok d)
    (he : e ∈ d.edits) : ¬ e.InsertsLine := by
  unfold declareAssign at hd
  simp only at hd
  split at hd
  · cases hd
    simp only [List.mem_cons, List.not_mem_nil, or_false] at he
    rcases he with rfl | rfl <;> exact Edit.not_insertsLine_replacement _ _
  · cases ht : src.declaredType stmt o with
    | error err => rw [ht] at hd; cases hd
    | ok type =>
      rw [ht] at hd
      cases hd
      rw [List.mem_singleton.1 he]
      exact Edit.not_insertsLine_replacement _ _

theorem not_insertsLine_declareCompound {stmt : Nat} {op : Operator}
    (he : e ∈ (src.declareCompound stmt o op name).edits) : ¬ e.InsertsLine := by
  unfold declareCompound at he
  simp only at he
  split at he
  · simp only [List.mem_cons, List.not_mem_nil, or_false] at he
    rcases he with rfl | rfl
    · exact Edit.not_insertsLine_replacement _ _
    · exact Edit.not_insertsLine_paren _
  · rw [List.mem_singleton.1 he]
    exact Edit.not_insertsLine_replacement _ _

/-- The line for an element of an assignment is inserted in front of the assignment, which is an
element of a list of statements. -/
theorem insertsLine_declareTuple {stmt k s : Nat}
    (hd : src.declareTuple stmt k o s name = .ok d) (he : e ∈ d.edits) (hl : e.InsertsLine) :
    e.start = src.tree.start stmt ∧ src.tree.inStatementList stmt := by
  unfold declareTuple at hd
  simp only at hd
  split at hd
  · cases hd
    rw [List.mem_singleton.1 he] at hl
    exact absurd hl (Edit.not_insertsLine_replacement _ _)
  · split at hd
    · cases hd
      simp only [List.mem_cons, List.not_mem_nil, or_false] at he
      rcases he with rfl | rfl <;> exact absurd hl (Edit.not_insertsLine_replacement _ _)
    · cases ht : src.declaredType stmt o with
      | error err => rw [ht] at hd; cases hd
      | ok type =>
        rw [ht] at hd
        cases hd
        -- a type is spelled only for a statement of a list
        have hin : src.tree.inStatementList stmt := by
          unfold declaredType at ht
          split at ht
          · assumption
          · cases ht
        simp only [List.mem_cons, List.not_mem_nil, or_false] at he
        rcases he with rfl | rfl
        · exact ⟨rfl, hin⟩
        · exact absurd hl (Edit.not_insertsLine_replacement _ _)

theorem insertsLine_declareOutArg {stmt unary target : Nat}
    (he : e ∈ (src.declareOutArg stmt unary target o name).edits) (hl : e.InsertsLine) :
    e.start = src.tree.start stmt := by
  simp only [declareOutArg, List.mem_cons, List.not_mem_nil, or_false] at he
  rcases he with rfl | rfl
  · rfl
  · exact absurd hl (Edit.not_insertsLine_replacement _ _)

/-- A line of a declaration is inserted in front of the innermost element of a list of statements
around the write. -/
theorem insertsLine_declare {i : Nat} {w : Write} (hw : src.tree.WritesAt i w) {place : Place}
    (hp : src.placeOf w (src.nameOf o) = .ok place) (hd : src.declare w o place name = .ok d)
    (he : e ∈ d.edits) (hl : e.InsertsLine) :
    e.start = src.tree.start place.stmt ∧ place.stmt ∈ src.tree.enclosing w.stmt ∧
      src.tree.inStatementList place.stmt ∧
      ∀ a ∈ src.tree.enclosing w.stmt, src.tree.inStatementList a →
        a ∈ src.tree.enclosing place.stmt := by
  cases hw with
  | assign => exact absurd hl (not_insertsLine_declareAssign hd he)
  | compound =>
    cases hd
    exact absurd hl (not_insertsLine_declareCompound he)
  | incDec =>
    cases hd
    rw [List.mem_singleton.1 he] at hl
    exact absurd hl (Edit.not_insertsLine_replacement _ _)
  | tuple | redefine =>
    rw [(placeAt_eq_ok hp).1]
    obtain ⟨hstart, hin⟩ := insertsLine_declareTuple hd he hl
    exact ⟨hstart, src.tree.self_mem_enclosing _, hin, fun a ha _ => ha⟩
  | outArg =>
    cases hd
    have hlist := listStatement?_of_placeOf hp
    obtain ⟨hmem, hin, -⟩ := Tree.listStatement?_spec hlist
    exact ⟨insertsLine_declareOutArg he hl, hmem, hin,
      fun a ha => Tree.mem_enclosing_of_listStatement?_eq hlist ha⟩

/-- A fix that inserts a line inserts it in front of an element of a list of statements around the
write. That element is a clause of `switch` or `select`, before which no statement is allowed,
exactly if the statement that writes stands in the head of a clause. -/
theorem line_before_clause_iff {outArgs : Bool} {root : Nat} {w : Write}
    (hw : w ∈ src.tree.writes outArgs root) {cancelled : Bool} {n : Namer} {edits : List Edit}
    (h : (src.newVariable cancelled n w).1 = .ok edits) (he : e ∈ edits) (hl : e.InsertsLine) :
    ∃ s ∈ src.tree.enclosing w.stmt, src.tree.inStatementList s ∧ e.start = src.tree.start s ∧
      ((src.tree.kind s).isClause ↔ src.tree.InClauseHead w.stmt) := by
  obtain ⟨i, -, hw⟩ := List.mem_flatMap.1 hw
  have hw := Tree.writesAt_of_mem hw
  obtain ⟨o, place, name, n', d, refs, -, hplace, -, hd, hrefs, rfl⟩ := newVariable_eq_ok h
  rcases List.mem_append.1 he with he | he
  · obtain ⟨hstart, hmem, hin, hfirst⟩ := insertsLine_declare hw hplace hd he hl
    exact ⟨place.stmt, hmem, hin, hstart, Tree.isClause_iff_inClauseHead hmem hin hfirst⟩
  · obtain ⟨rfl, -⟩ := references_eq_ok hrefs
    obtain ⟨r, -, rfl⟩ := List.mem_map.1 he
    exact absurd hl (Edit.not_insertsLine_replacement _ _)

/-- A call with `&x` in the head of a clause, and another one in its body:

    x := 1
    switch {
    case g(&x):
    L:
      for g(&x) {
        break L
      }
    }
-/
def clauseHead : Source :=
  .ofFile
    (Utf8.encode "package p\n\nfunc g(*int) bool\n\nfunc f() \x7b\n\tx := 1\n\tswitch \x7b\n" ++
      Utf8.encode "\tcase g(&x):\n\tL:\n\t\tfor g(&x) \x7b\n\t\t\tbreak L\n\t\t\x7d\n\t\x7d\n\x7d\n")
    []
    #[
      ⟨"g", 7, .other⟩,
      ⟨"int", 1, .other⟩,
      ⟨"bool", 0, .other⟩,
      ⟨"f", 9, .other⟩,
      ⟨"x", 1, .variable ⟨43, false, true, .scope 3⟩⟩,
      ⟨"L", 10, .other⟩]
    #[
      ⟨.predeclared, ⟨0, 0⟩, ["f", "g"]⟩,
      ⟨.scope 0, ⟨1, 111⟩, []⟩,
      ⟨.scope 1, ⟨12, 29⟩, []⟩,
      ⟨.scope 1, ⟨31, 110⟩, ["x"]⟩,
      ⟨.scope 3, ⟨51, 108⟩, []⟩,
      ⟨.scope 4, ⟨61, 105⟩, []⟩,
      ⟨.scope 5, ⟨79, 105⟩, []⟩,
      ⟨.scope 6, ⟨89, 105⟩, []⟩]
    #[
      ⟨.file none, none, .other, ⟨1, 110⟩, none⟩,
      ⟨.ident "p" .noObject none, some 0, .name, ⟨9, 10⟩, none⟩,
      ⟨.funcDecl false none, some 0, .decls, ⟨12, 29⟩, none⟩,
      ⟨.ident "g" (.object 0) none, some 2, .name, ⟨17, 18⟩, none⟩,
      ⟨.funcType, some 2, .type, ⟨12, 29⟩, none⟩,
      ⟨.fieldList, some 4, .params, ⟨18, 24⟩, none⟩,
      ⟨.field, some 5, .list, ⟨19, 23⟩, none⟩,
      ⟨.starExpr, some 6, .type, ⟨19, 23⟩, none⟩,
      ⟨.ident "int" .nothing (some 1), some 7, .x, ⟨20, 23⟩, none⟩,
      ⟨.fieldList, some 4, .other, ⟨25, 29⟩, none⟩,
      ⟨.field, some 9, .list, ⟨25, 29⟩, none⟩,
      ⟨.ident "bool" .nothing (some 2), some 10, .type, ⟨25, 29⟩, none⟩,
      ⟨.funcDecl true none, some 0, .decls, ⟨31, 110⟩, none⟩,
      ⟨.ident "f" (.object 3) none, some 12, .name, ⟨36, 37⟩, none⟩,
      ⟨.funcType, some 12, .type, ⟨31, 39⟩, none⟩,
      ⟨.fieldList, some 14, .params, ⟨37, 39⟩, none⟩,
      ⟨.blockStmt 40, some 12, .body, ⟨40, 110⟩, none⟩,
      ⟨.assignStmt .define 45, some 16, .list, ⟨43, 49⟩, none⟩,
      ⟨.ident "x" (.object 4) none, some 17, .lhs, ⟨43, 44⟩, none⟩,
      ⟨.basicLit .integer, some 17, .rhs, ⟨48, 49⟩, some 1⟩,
      ⟨.switchStmt, some 16, .list, ⟨51, 108⟩, none⟩,
      ⟨.blockStmt 58, some 20, .body, ⟨58, 108⟩, none⟩,
      ⟨.caseClause 71, some 21, .list, ⟨61, 105⟩, none⟩,
      ⟨.callExpr, some 22, .list, ⟨66, 71⟩, none⟩,
      ⟨.ident "g" .nothing (some 0), some 23, .other, ⟨66, 67⟩, none⟩,
      ⟨.unaryExpr (.arithmetic .and), some 23, .args, ⟨68, 70⟩, none⟩,
      ⟨.ident "x" .nothing (some 4), some 25, .x, ⟨69, 70⟩, none⟩,
      ⟨.labeledStmt, some 22, .body, ⟨74, 105⟩, none⟩,
      ⟨.ident "L" (.object 5) none, some 27, .other, ⟨74, 75⟩, none⟩,
      ⟨.forStmt, some 27, .other, ⟨79, 105⟩, none⟩,
      ⟨.callExpr, some 29, .other, ⟨83, 88⟩, none⟩,
      ⟨.ident "g" .nothing (some 0), some 30, .other, ⟨83, 84⟩, none⟩,
      ⟨.unaryExpr (.arithmetic .and), some 30, .args, ⟨85, 87⟩, none⟩,
      ⟨.ident "x" .nothing (some 4), some 32, .x, ⟨86, 87⟩, none⟩,
      ⟨.blockStmt 89, some 29, .body, ⟨89, 105⟩, none⟩,
      ⟨.branchStmt, some 34, .list, ⟨94, 101⟩, none⟩,
      ⟨.ident "L" .nothing (some 5), some 35, .other, ⟨100, 101⟩, none⟩]

/-- For the argument in the head of the clause the declaration is inserted in front of `case`, where
only the clause starts. -/
theorem line_before_clause_clauseHead :
    ⟨.outArg 25, 22, 26⟩ ∈ clauseHead.tree.writes true 0 ∧
      (clauseHead.newVariable false (.ofLimit 0) ⟨.outArg 25, 22, 26⟩).1 =
        .ok [⟨61, none, "x1 := x\n\t"⟩, ⟨69, some 70, "x1"⟩, ⟨86, some 87, "x1"⟩] ∧
      (⟨61, none, "x1 := x\n\t"⟩ : Edit).InsertsLine ∧
      ∀ s < clauseHead.tree.size, clauseHead.tree.start s = 61 →
        (clauseHead.tree.kind s).isClause := by
  decide +kernel

/-- For the argument in the body the declaration is inserted in front of the label, which stands in
the list of the clause. -/
theorem line_before_clause_iff_clauseHead :
    (clauseHead.newVariable false (.ofLimit 0) ⟨.outArg 32, 29, 33⟩).1 =
        .ok [⟨74, none, "x1 := x\n\t"⟩, ⟨86, some 87, "x1"⟩] ∧
      ∃ s ∈ clauseHead.tree.enclosing 29, clauseHead.tree.inStatementList s ∧
        74 = clauseHead.tree.start s ∧ ¬ (clauseHead.tree.kind s).isClause := by
  have h : (clauseHead.newVariable false (.ofLimit 0) ⟨.outArg 32, 29, 33⟩).1 =
      .ok [⟨74, none, "x1 := x\n\t"⟩, ⟨86, some 87, "x1"⟩] := by decide +kernel
  have hw : ⟨.outArg 32, 29, 33⟩ ∈ clauseHead.tree.writes true 0 := by decide +kernel
  obtain ⟨s, hs, hin, hstart, hiff⟩ := line_before_clause_iff hw h List.mem_cons_self (by decide)
  have hhead : ¬ clauseHead.tree.InClauseHead 29 := by decide +kernel
  exact ⟨h, s, hs, hin, hstart, fun hk => hhead (hiff.1 hk)⟩

end Source

end AssignOnce
