import AssignOnce.Check
import AssignOnce.Proofs.Analysis.Writes
import AssignOnce.Proofs.Sample
import Mathlib.Data.List.Sort

/-!
# The reported writes of a file

A file is checked function by function, and every function collects the writes of its own body. What
is reported is nevertheless what one collection over the whole file gives (`Source.breaches`):

* `Source.flatMap_bodyNodes`: the walks over the bodies of the checked functions, one after the
  other, are one walk over the file that keeps the nodes in these bodies;
* `Source.reassignments_reportWrites`: each disallowed write is reported once, in order;
* `Source.reassignments_check`: the reports of disallowed writes of a file.
-/

namespace AssignOnce

namespace Diagnostic

/-- Whether a diagnostic reports a disallowed write. -/
def isReassignment (d : Diagnostic) : Bool :=
  d.category == Rule.reassignment.id

/-- A diagnostic without its fixes. -/
def bare (d : Diagnostic) : Diagnostic :=
  { d with fixes := [] }

/-- The reports of disallowed writes among some diagnostics, without their fixes. -/
def reassignments (ds : List Diagnostic) : List Diagnostic :=
  (ds.filter isReassignment).map bare

@[simp] theorem reassignments_append (ds ds' : List Diagnostic) :
    reassignments (ds ++ ds') = reassignments ds ++ reassignments ds' := by
  simp [reassignments]

theorem reassignments_flatMap {α : Type} (as : List α) (g : α → List Diagnostic) :
    reassignments (as.flatMap g) = as.flatMap fun a => reassignments (g a) := by
  simp [reassignments, List.filter_flatMap, List.map_flatMap]

theorem reassignments_eq_nil {ds : List Diagnostic}
    (h : ∀ d ∈ ds, d.category ≠ Rule.reassignment.id) : reassignments ds = [] := by
  simpa [reassignments, isReassignment, List.filter_eq_nil_iff] using h

end Diagnostic

namespace Source

open Diagnostic (reassignments)

variable (src : Source)

/-- Whether a node lies in the body of an outermost function whose comments do not end in one that
switches off the tool. -/
def IsChecked (n : Nat) : Prop :=
  ∃ f ∈ src.tree.enclosing n, src.tree.Outermost f ∧
    ¬ SourceFile.suppresses (src.file.commentsOf? f) ∧
    ∃ b ∈ src.tree.enclosing n, src.tree.body? f = some b

instance (n : Nat) : Decidable (src.IsChecked n) :=
  inferInstanceAs (Decidable (∃ f ∈ _, _))

/-- Whether a write to a variable is to be reported. -/
def breaks (policy : Policy) (w : Write) (o : Nat) : Bool :=
  src.disallowed policy.params o w.target && !src.file.suppressedAt (src.tree.start w.target)

/-- The writes of a file that are to be reported, with their variables: of the writes collected over
the whole file those that lie in a checked body, resolve to a variable, are disallowed, and stand
on no line with a comment that switches off the tool. -/
def breaches (c : Config) : List (Write × Nat) :=
  (src.resolved ((src.tree.writes c.policy.outArgs 0).filter fun w => src.IsChecked w.node)).filter
    fun (w, o) => src.breaks c.policy w o

/-- The report about a write to a variable. -/
def breachReport (wo : Write × Nat) : Diagnostic :=
  Rule.reassignment.diagnostic (src.tree.span wo.1.target) (src.nameOf wo.2)

/-! ## Reports about one function -/

theorem reassignments_failures (cancelled : Bool) (r : Reporter) (w : Write) (o : Nat) :
    reassignments (src.propose cancelled r w o).1.failures = [] := by
  refine Diagnostic.reassignments_eq_nil fun d hd => ?_
  unfold propose at hd
  simp only at hd
  split at hd
  · cases hd
  · obtain rfl := List.mem_singleton.1 hd
    simp [Diagnostic.internal, Rule.reassignment]
  · cases hd

/-- A disallowed write is reported unless its line is switched off, whatever fixes it has. -/
theorem reassignments_reportWrite (cancelled withFixes : Bool) (r : Reporter) (w : Write)
    (o : Nat) : reassignments (src.reportWrite cancelled withFixes r w o).1 =
      if src.file.suppressedAt (src.tree.start w.target) then []
      else [src.breachReport (w, o)] := by
  unfold reportWrite
  by_cases h : src.file.suppressedAt (src.tree.start w.target)
  · have hs : src.file.suppressedAt (src.tree.span w.target).start := h
    simp only [h, hs, if_true]
    rfl
  · have hs : ¬ src.file.suppressedAt (src.tree.span w.target).start := h
    simp only [h, hs, Bool.false_eq_true, if_false]
    split
    · rw [Diagnostic.reassignments_append, reassignments_failures]
      rfl
    · rfl

/-- What is reported of a list of writes does not depend on the names and edits carried along. -/
theorem reassignments_reportWrites (cancelled withFixes : Bool) (r : Reporter)
    (wos : List (Write × Nat)) :
    reassignments (src.reportWrites cancelled withFixes r wos) =
      (wos.filter fun wo => !src.file.suppressedAt (src.tree.start wo.1.target)).map
        src.breachReport := by
  induction wos generalizing r with
  | nil => rfl
  | cons wo wos ih =>
    obtain ⟨w, o⟩ := wo
    simp only [reportWrites, Diagnostic.reassignments_append, reassignments_reportWrite, ih]
    by_cases h : src.file.suppressedAt (src.tree.start w.target) <;> simp [h]

theorem reassignments_checkPermissions (c : Config) (f : Nat) :
    reassignments (src.checkPermissions c f) = [] := by
  refine Diagnostic.reassignments_eq_nil fun d hd => ?_
  obtain ⟨a, -, hd⟩ := List.mem_flatMap.1 hd
  unfold reportFinding at hd
  split at hd
  · cases hd
  · split at hd
    · obtain rfl := List.mem_singleton.1 hd
      simp [Rule.diagnostic, Rule.unnecessaryPermission, Rule.reassignment]
    · obtain rfl := List.mem_singleton.1 hd
      simp [Rule.diagnostic, Rule.unnecessaryDirective, Rule.reassignment]

/-- The reports about the writes of a function are those about the nodes of its body. -/
theorem reassignments_checkFunction (c : Config) (hc : c.reportsWrites) (f : Nat) :
    reassignments (src.checkFunction c f) =
      ((src.resolved ((src.tree.bodyNodes f).flatMap (src.tree.writesAt c.policy.outArgs))).filter
        fun (w, o) => src.breaks c.policy w o).map src.breachReport := by
  unfold checkFunction Tree.bodyNodes
  split
  · rename_i hb
    simp [hb, resolved, reassignments]
  · rename_i b hb
    have hp : reassignments (if c.reportsUnused then src.checkPermissions c f else []) = [] := by
      split
      · exact src.reassignments_checkPermissions c f
      · rfl
    simp only [hc, if_true, Diagnostic.reassignments_append, hp, List.append_nil, checkWrites,
      reassignments_reportWrites, disallowedWrites, List.filter_filter, hb, Tree.writes, breaks]
    congr 1
    refine List.filter_congr fun wo _ => ?_
    rw [Bool.and_comm]

/-! ## Reports about all functions -/

theorem mem_checkedFunctions {f : Nat} :
    f ∈ src.checkedFunctions ↔ f < src.tree.size ∧ 0 ∈ src.tree.enclosing f ∧
      src.tree.Outermost f ∧ ¬ SourceFile.suppresses (src.file.commentsOf? f) := by
  simp only [checkedFunctions, Tree.functionsBelow, List.mem_filter, Tree.mem_subtree,
    Bool.and_eq_true, Tree.isTopFunction_iff, Bool.not_eq_true']
  constructor
  · rintro ⟨⟨⟨hs, h0⟩, -⟩, ho, hc⟩
    exact ⟨hs, h0, ho, by simp [hc]⟩
  · rintro ⟨hs, h0, ho, hc⟩
    exact ⟨⟨⟨hs, h0⟩, ho.isFunction⟩, ho, by simpa using hc⟩

theorem pairwise_lt_checkedFunctions : src.checkedFunctions.Pairwise (· < ·) :=
  ((Tree.pairwise_lt_subtree src.tree 0).filter _).filter _

/-- The walks over the bodies of the checked functions are one walk over the file. -/
theorem flatMap_bodyNodes (ht : src.tree.WellFormed) :
    src.checkedFunctions.flatMap src.tree.bodyNodes =
      (src.tree.subtree 0).filter fun n => src.IsChecked n := by
  -- both lists are sorted, so it is enough to compare their elements
  have sorted : (src.checkedFunctions.flatMap src.tree.bodyNodes).Pairwise (· < ·) := by
    refine List.pairwise_flatMap.2 ⟨fun f _ => Tree.pairwise_lt_bodyNodes _ f, ?_⟩
    refine src.pairwise_lt_checkedFunctions.imp_of_mem fun {f g} hf hg hfg n hn m hm => ?_
    obtain ⟨-, -, hf, -⟩ := src.mem_checkedFunctions.1 hf
    obtain ⟨-, -, hg, -⟩ := src.mem_checkedFunctions.1 hg
    have := ht.lt_of_mem_bodyNodes hf hg hfg hn
    have := Tree.le_of_mem_enclosing (Tree.mem_enclosing_of_mem_bodyNodes hm)
    omega
  refine sorted.eq_of_mem_iff ((Tree.pairwise_lt_subtree _ _).filter _) fun n => ?_
  rw [List.mem_filter, decide_eq_true_eq, List.mem_flatMap, Tree.mem_subtree]
  simp only [mem_checkedFunctions]
  constructor
  · rintro ⟨f, ⟨-, -, ho, hc⟩, hn⟩
    obtain ⟨hs, hb⟩ := Tree.mem_bodyNodes.1 hn
    exact ⟨⟨hs, ht.root_mem_enclosing hs⟩, f, Tree.mem_enclosing_of_mem_bodyNodes hn, ho, hc, hb⟩
  · rintro ⟨⟨hs, -⟩, f, hf, ho, hc, hb⟩
    have := Tree.le_of_mem_enclosing hf
    exact ⟨f, ⟨by omega, ht.root_mem_enclosing (by omega), ho, hc⟩, Tree.mem_bodyNodes.2 ⟨hs, hb⟩⟩

theorem flatMap_filter_eq {α β : Type} {p : α → Bool} {q : β → Bool} {g : α → List β}
    (h : ∀ a, ∀ b ∈ g a, q b = p a) (as : List α) :
    (as.filter p).flatMap g = (as.flatMap g).filter q := by
  induction as with
  | nil => rfl
  | cons a as ih =>
    rw [List.flatMap_cons, List.filter_append, ← ih, List.filter_cons]
    split
    · rename_i hp
      rw [List.flatMap_cons, List.filter_eq_self.2 fun b hb => (h a b hb).trans hp]
    · rename_i hp
      have hn : (g a).filter q = [] :=
        List.filter_eq_nil_iff.2 fun b hb => by rw [h a b hb]; exact hp
      rw [hn, List.nil_append]

/-- The writes of the checked bodies are the writes of the file that lie in them. -/
theorem flatMap_writesAt_bodyNodes (ht : src.tree.WellFormed) (outArgs : Bool) :
    src.checkedFunctions.flatMap (fun f =>
        (src.tree.bodyNodes f).flatMap (src.tree.writesAt outArgs)) =
      (src.tree.writes outArgs 0).filter fun w => src.IsChecked w.node := by
  rw [← List.flatMap_assoc, src.flatMap_bodyNodes ht]
  exact flatMap_filter_eq (fun n w hw => by rw [(Tree.writesAt_of_mem hw).node_eq]) _

theorem sublist_resolved (ws : List Write) : ((src.resolved ws).map (·.1)).Sublist ws := by
  induction ws with
  | nil => exact .slnil
  | cons w ws ih =>
    unfold resolved at ih ⊢
    cases h : src.resolve? w with
    | none => simpa [h] using ih.cons w
    | some o => simpa [h] using ih.cons_cons w

theorem nodup_breaches (c : Config) : ((src.breaches c).map (·.1.target)).Nodup := by
  have sub : ((src.breaches c).map (·.1)).Sublist (src.tree.writes c.policy.outArgs 0) :=
    (List.filter_sublist.map _).trans ((src.sublist_resolved _).trans List.filter_sublist)
  have := sub.map (·.target)
  rw [List.map_map] at this
  exact (Tree.nodup_targets _ _ _).sublist this

/-- The reports of disallowed writes of a file that is not left out are those of the writes
collected over the whole file, each once and in order; no target is reported twice. -/
theorem reassignments_check (c : Config) (ht : src.tree.WellFormed) (hl : src.file.located)
    (hs : src.skips c = false) (hc : c.reportsWrites) :
    reassignments (src.check c) = (src.breaches c).map src.breachReport ∧
      ((src.breaches c).map (·.1.target)).Nodup := by
  constructor
  · have e : src.check c = src.checkedFunctions.flatMap (src.checkFunction c) := by
      simp [check, hl, hs]
    rw [e, Diagnostic.reassignments_flatMap, breaches, ← src.flatMap_writesAt_bodyNodes ht]
    simp only [src.reassignments_checkFunction c hc, resolved, List.filterMap_flatMap,
      List.filter_flatMap, List.map_flatMap]
  · exact src.nodup_breaches c

/-- A function that is assigned to a variable of the package and returns a literal in which the
variable of the outer function is written twice:

    var h = func() func() {
      x := 1
      return func() { x = 2; x++; _ = x }
    }
-/
def nestedLiterals : Source :=
  .ofFile
    (Utf8.encode "package p\n\nvar h = func() func() \x7b\n\tx := 1\n\treturn func() \x7b\n" ++
      Utf8.encode "\t\tx = 2\n\t\tx++\n\t\t_ = x\n\t\x7d\n\x7d\n")
    []
    #[
      ⟨"h", 7, .variable ⟨16, false, true, .package⟩⟩,
      ⟨"x", 1, .variable ⟨37, false, true, .scope 2⟩⟩]
    #[
      ⟨.predeclared, ⟨0, 0⟩, ["h"]⟩,
      ⟨.scope 0, ⟨1, 88⟩, []⟩,
      ⟨.scope 1, ⟨20, 87⟩, ["x"]⟩,
      ⟨.scope 2, ⟨27, 33⟩, []⟩,
      ⟨.scope 2, ⟨52, 85⟩, []⟩]
    #[
      ⟨.file none, none, .other, ⟨1, 87⟩, none⟩,
      ⟨.ident "p" .noObject none, some 0, .name, ⟨9, 10⟩, none⟩,
      ⟨.genDecl false none, some 0, .decls, ⟨12, 87⟩, none⟩,
      ⟨.valueSpec none, some 2, .specs, ⟨16, 87⟩, none⟩,
      ⟨.ident "h" (.object 0) none, some 3, .names, ⟨16, 17⟩, none⟩,
      ⟨.funcLit, some 3, .other, ⟨20, 87⟩, none⟩,
      ⟨.funcType, some 5, .type, ⟨20, 33⟩, none⟩,
      ⟨.fieldList, some 6, .params, ⟨24, 26⟩, none⟩,
      ⟨.fieldList, some 6, .other, ⟨27, 33⟩, none⟩,
      ⟨.field, some 8, .list, ⟨27, 33⟩, none⟩,
      ⟨.funcType, some 9, .type, ⟨27, 33⟩, none⟩,
      ⟨.fieldList, some 10, .params, ⟨31, 33⟩, none⟩,
      ⟨.blockStmt 34, some 5, .body, ⟨34, 87⟩, none⟩,
      ⟨.assignStmt .define 39, some 12, .list, ⟨37, 43⟩, none⟩,
      ⟨.ident "x" (.object 1) none, some 13, .lhs, ⟨37, 38⟩, none⟩,
      ⟨.basicLit .integer, some 13, .rhs, ⟨42, 43⟩, some 1⟩,
      ⟨.returnStmt, some 12, .list, ⟨45, 85⟩, none⟩,
      ⟨.funcLit, some 16, .other, ⟨52, 85⟩, none⟩,
      ⟨.funcType, some 17, .type, ⟨52, 58⟩, none⟩,
      ⟨.fieldList, some 18, .params, ⟨56, 58⟩, none⟩,
      ⟨.blockStmt 59, some 17, .body, ⟨59, 85⟩, none⟩,
      ⟨.assignStmt .assign 65, some 20, .list, ⟨63, 68⟩, none⟩,
      ⟨.ident "x" .nothing (some 1), some 21, .lhs, ⟨63, 64⟩, none⟩,
      ⟨.basicLit .integer, some 21, .rhs, ⟨67, 68⟩, some 1⟩,
      ⟨.incDecStmt .increment, some 20, .list, ⟨71, 74⟩, none⟩,
      ⟨.ident "x" .nothing (some 1), some 24, .x, ⟨71, 72⟩, none⟩,
      ⟨.assignStmt .assign 79, some 20, .list, ⟨77, 82⟩, none⟩,
      ⟨.ident "_" .noObject none, some 26, .lhs, ⟨77, 78⟩, none⟩,
      ⟨.ident "x" .nothing (some 1), some 26, .rhs, ⟨81, 82⟩, some 1⟩]

/-- Both writes of the inner literal are reported, each once. -/
theorem reassignments_check_nestedLiterals :
    reassignments (nestedLiterals.check .initial) =
        [nestedLiterals.breachReport (⟨.assign, 21, 22⟩, 1),
          nestedLiterals.breachReport (⟨.incDec (.arithmetic .add), 24, 25⟩, 1)] ∧
      [22, 25].Nodup := by
  have hb : nestedLiterals.breaches .initial =
      [(⟨.assign, 21, 22⟩, 1), (⟨.incDec (.arithmetic .add), 24, 25⟩, 1)] := by decide +kernel
  have h := nestedLiterals.reassignments_check .initial (by decide +kernel) rfl (by decide +kernel)
    (by decide +kernel)
  rw [hb] at h
  exact h

end Source

end AssignOnce
