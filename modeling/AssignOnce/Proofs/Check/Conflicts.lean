import AssignOnce.Proofs.Check.Reassignments
import AssignOnce.Proofs.Fix.Extent
import AssignOnce.Proofs.Fix.Session
import AssignOnce.Proofs.Sample

/-!
# Fixes with new variables do not conflict

Within a function a fix is offered only if it overlaps none that was offered before, so one report
after the other keeps the offered fixes clear of each other (`Source.reportWrite_cases` for one
report, `Source.reportWrites_clear` for a run). Between functions nothing is compared; there the
fixes are clear of each other because each one stays behind the start of the body of its function
and in front of its end (`Source.check_fixes_clear`).
-/

namespace AssignOnce

theorem Edit.overlaps_eq_false {a b : Edit} {p : Int} (ha : a.rangeStop ≤ p) (hb : p < b.start) :
    a.overlaps b = false := by
  have := a.start_le_rangeStop
  simp only [overlaps, Bool.or_eq_false_iff, beq_eq_false_iff_ne, Bool.and_eq_false_iff,
    decide_eq_false_iff_not]
  omega

namespace Diagnostic

/-- The fixes of a diagnostic that declare a new variable. -/
def newFixes (d : Diagnostic) : List Fix :=
  d.fixes.filter fun fx => fx.title == Fix.newVariableTitle

/-- Whether no fix with a new variable of one diagnostic overlaps one of another diagnostic. -/
def Clear (d d' : Diagnostic) : Prop :=
  ∀ fx ∈ d.newFixes, ∀ fx' ∈ d'.newFixes, ∀ e ∈ fx.edits, ∀ e' ∈ fx'.edits, e.overlaps e' = false

theorem clear_of_newFixes_eq_nil {d d' : Diagnostic} (h : d.newFixes = []) : d.Clear d' := by
  intro fx hfx
  rw [h] at hfx
  cases hfx

theorem pairwise_clear_of_newFixes_eq_nil {ds : List Diagnostic} (h : ∀ d ∈ ds, d.newFixes = []) :
    ds.Pairwise Clear :=
  List.pairwise_of_forall_mem_list fun d hd _ _ => clear_of_newFixes_eq_nil (h d hd)

theorem newFixes_of_fixes_eq_nil {d : Diagnostic} (h : d.fixes = []) : d.newFixes = [] := by
  rw [newFixes, h]
  rfl

end Diagnostic

namespace Source

open Diagnostic (Clear)

variable {src : Source}

/-! ## One report -/

theorem newFixes_permitFixes (src : Source) (cancelled : Bool) (w : Write) (o : Nat) :
    (src.permitFixes cancelled w o).filter (fun fx => fx.title == Fix.newVariableTitle) = [] := by
  unfold permitFixes
  split <;> simp [Fix.permitTitle, Fix.newVariableTitle]

theorem propose_cases (src : Source) (cancelled : Bool) (r : Reporter) (w : Write) (o : Nat) :
    ((src.propose cancelled r w o).2.session = r.session ∧
      (∀ d ∈ (src.propose cancelled r w o).1.failures, d.fixes = []) ∧
      (src.propose cancelled r w o).1.fixes.filter
        (fun fx => fx.title == Fix.newVariableTitle) = []) ∨
    ∃ edits, (src.newVariable cancelled r.namer w).1 = .ok edits ∧ r.session.admits edits ∧
      (src.propose cancelled r w o).2.session = ⟨r.session.taken ++ edits⟩ ∧
      (src.propose cancelled r w o).1.failures = [] ∧
      (src.propose cancelled r w o).1.fixes.filter
        (fun fx => fx.title == Fix.newVariableTitle) = [⟨Fix.newVariableTitle, edits⟩] := by
  have hpermits := src.newFixes_permitFixes cancelled w o
  unfold propose
  cases h : src.newVariable cancelled r.namer w with
  | mk result namer =>
    cases result with
    | ok edits =>
      by_cases ha : r.session.admits edits
      · right
        refine ⟨edits, rfl, ha, ?_⟩
        simp [FixSession.offer, ha, hpermits]
      · left
        simp [FixSession.offer, ha, hpermits]
    | error e =>
      left
      cases e <;> simp [hpermits, Diagnostic.internal]

/-- A report offers no new variable and keeps the session, or it offers a fix that the session
admits and adds it to the session. -/
theorem reportWrite_cases (src : Source) (cancelled withFixes : Bool) (r : Reporter) (w : Write)
    (o : Nat) :
    ((src.reportWrite cancelled withFixes r w o).2.session = r.session ∧
      ∀ d ∈ (src.reportWrite cancelled withFixes r w o).1, d.newFixes = []) ∨
    ∃ edits d, (src.newVariable cancelled r.namer w).1 = .ok edits ∧ r.session.admits edits ∧
      (src.reportWrite cancelled withFixes r w o).1 = [d] ∧
      (src.reportWrite cancelled withFixes r w o).2.session = ⟨r.session.taken ++ edits⟩ ∧
      d.span = src.tree.span w.target ∧ d.newFixes = [⟨Fix.newVariableTitle, edits⟩] := by
  unfold reportWrite
  simp only
  split
  · exact .inl ⟨rfl, fun d hd => by cases hd⟩
  · split
    · rcases src.propose_cases cancelled r w o with
        ⟨hs, hfail, hnew⟩ | ⟨edits, hok, ha, hs, hfail, hnew⟩
      · refine .inl ⟨hs, fun d hd => ?_⟩
        rcases List.mem_append.1 hd with hd | hd
        · exact Diagnostic.newFixes_of_fixes_eq_nil (hfail d hd)
        · rw [List.mem_singleton.1 hd]
          exact hnew
      · refine .inr ⟨edits, { Rule.reassignment.diagnostic (src.tree.span w.target) (src.nameOf o)
          with fixes := (src.propose cancelled r w o).1.fixes }, hok, ha, ?_, hs, rfl, hnew⟩
        rw [hfail]
        rfl
    · refine .inl ⟨rfl, fun d hd => ?_⟩
      rw [List.mem_singleton.1 hd]
      exact Diagnostic.newFixes_of_fixes_eq_nil rfl

/-! ## Reports about one function -/

/-- The fixes of a run are clear of each other and of what was offered before. -/
theorem reportWrites_clear (src : Source) (cancelled withFixes : Bool) (r : Reporter)
    (wos : List (Write × Nat)) :
    (src.reportWrites cancelled withFixes r wos).Pairwise Clear ∧
      ∀ d ∈ src.reportWrites cancelled withFixes r wos, ∀ fx ∈ d.newFixes,
        r.session.admits fx.edits := by
  induction wos generalizing r with
  | nil => exact ⟨.nil, fun d hd => by cases hd⟩
  | cons wo wos ih =>
    obtain ⟨w, o⟩ := wo
    simp only [reportWrites]
    obtain ⟨hclear, hadmits⟩ := ih (src.reportWrite cancelled withFixes r w o).2
    rcases src.reportWrite_cases cancelled withFixes r w o with
      ⟨hs, hnone⟩ | ⟨edits, d, -, ha, hd, hs, -, hnew⟩
    · rw [hs] at hadmits
      constructor
      · refine List.pairwise_append.2 ⟨?_, hclear, fun d hd d' _ => ?_⟩
        · exact Diagnostic.pairwise_clear_of_newFixes_eq_nil hnone
        · exact Diagnostic.clear_of_newFixes_eq_nil (hnone d hd)
      · intro d hd fx hfx
        rcases List.mem_append.1 hd with hd | hd
        · rw [hnone d hd] at hfx
          cases hfx
        · exact hadmits d hd fx hfx
    · rw [hs] at hadmits
      simp only [FixSession.admits_iff, List.mem_append] at hadmits
      rw [hd]
      constructor
      · refine List.pairwise_cons.2 ⟨fun d' hd' fx hfx fx' hfx' e he e' he' => ?_, hclear⟩
        rw [hnew, List.mem_singleton] at hfx
        rw [Edit.overlaps_comm]
        exact hadmits d' hd' fx' hfx' e' he' e (.inr (by rw [hfx] at he; exact he))
      · intro d' hd' fx hfx
        rcases List.mem_cons.1 hd' with rfl | hd'
        · rw [hnew, List.mem_singleton] at hfx
          rw [hfx]
          exact ha
        · exact FixSession.admits_iff.2 fun e he t ht => hadmits d' hd' fx hfx e he t (.inl ht)

/-- A fix with a new variable is one for a write that is reported at its target. -/
theorem exists_newVariable_of_mem_reportWrites {cancelled withFixes : Bool} {r : Reporter}
    {wos : List (Write × Nat)} {d : Diagnostic}
    (hd : d ∈ src.reportWrites cancelled withFixes r wos) {fx : Fix} (hfx : fx ∈ d.newFixes) :
    ∃ wo ∈ wos, ∃ n, (src.newVariable cancelled n wo.1).1 = .ok fx.edits ∧
      d.span = src.tree.span wo.1.target := by
  induction wos generalizing r with
  | nil => cases hd
  | cons wo wos ih =>
    obtain ⟨w, o⟩ := wo
    simp only [reportWrites] at hd
    rcases List.mem_append.1 hd with hd | hd
    · rcases src.reportWrite_cases cancelled withFixes r w o with
        ⟨-, hnone⟩ | ⟨edits, d', hok, -, hd', -, hspan, hnew⟩
      · rw [hnone d hd] at hfx
        cases hfx
      · rw [hd', List.mem_singleton] at hd
        rw [hd, hnew, List.mem_singleton] at hfx
        rw [hd, hfx]
        exact ⟨(w, o), List.mem_cons_self, r.namer, hok, hspan⟩
    · obtain ⟨wo, hwo, h⟩ := ih hd
      exact ⟨wo, List.mem_cons_of_mem _ hwo, h⟩

theorem newFixes_checkPermissions {c : Config} {f : Nat} {d : Diagnostic}
    (hd : d ∈ src.checkPermissions c f) : d.newFixes = [] := by
  obtain ⟨a, -, hd⟩ := List.mem_flatMap.1 hd
  unfold reportFinding at hd
  split at hd
  · cases hd
  · split at hd <;>
    · rw [List.mem_singleton.1 hd]
      exact Diagnostic.newFixes_of_fixes_eq_nil rfl

/-- The diagnostics of a function with fixes are those about the writes of its body. -/
theorem checkFunction_eq (src : Source) (c : Config) (f : Nat) :
    ∃ ds ds', src.checkFunction c f = ds ++ ds' ∧ (∀ d ∈ ds', d.newFixes = []) ∧
      (ds = [] ∨ ∃ b, src.tree.body? f = some b ∧ ds = src.checkWrites c b) := by
  unfold checkFunction
  split
  · exact ⟨[], [], rfl, by simp, .inl rfl⟩
  · rename_i b hb
    refine ⟨_, _, rfl, fun d hd => ?_, ?_⟩
    · split at hd
      · exact newFixes_checkPermissions hd
      · cases hd
    · split
      · exact .inr ⟨b, hb, rfl⟩
      · exact .inl rfl

theorem checkFunction_clear (src : Source) (c : Config) (f : Nat) :
    (src.checkFunction c f).Pairwise Clear := by
  obtain ⟨ds, ds', e, hnone, hds⟩ := src.checkFunction_eq c f
  rw [e]
  refine List.pairwise_append.2 ⟨?_, ?_, fun d _ d' hd' => ?_⟩
  · rcases hds with rfl | ⟨b, -, rfl⟩
    · exact .nil
    · exact (src.reportWrites_clear _ _ _ _).1
  · exact Diagnostic.pairwise_clear_of_newFixes_eq_nil hnone
  · intro fx _ fx' hfx'
    rw [hnone d' hd'] at hfx'
    cases hfx'

theorem exists_writesAt_of_mem_disallowedWrites {policy : Policy} {b : Nat} {wo : Write × Nat}
    (h : wo ∈ src.disallowedWrites policy b) :
    ∃ i, i < src.tree.size ∧ src.tree.WritesAt i wo.1 ∧ b ∈ src.tree.enclosing i := by
  have hw : wo.1 ∈ src.tree.writes policy.outArgs b :=
    (src.sublist_resolved _).subset (List.mem_map_of_mem (List.mem_filter.1 h).1)
  obtain ⟨i, hi, hwi⟩ := List.mem_flatMap.1 hw
  obtain ⟨hlt, hbi⟩ := Tree.mem_subtree.1 hi
  exact ⟨i, hlt, Tree.writesAt_of_mem hwi, hbi⟩

/-- The edits of a fix in the diagnostics of a function can all be made and lie in the function,
behind the start of its body. -/
theorem checkFunction_extent (ht : src.tree.WellFormed) (hl : src.tree.LaidOut) {c : Config}
    {f : Nat} (hf : src.tree.Outermost f) {d : Diagnostic} (hd : d ∈ src.checkFunction c f)
    {fx : Fix} (hfx : fx ∈ d.newFixes) :
    ∃ b x, src.tree.body? f = some b ∧ f ∈ src.tree.enclosing x ∧ d.span = src.tree.span x ∧
      fx.edits.Pairwise Edit.Agrees ∧
      ∀ e ∈ fx.edits, src.tree.start b ≤ e.start ∧ e.rangeStop ≤ src.tree.stop f := by
  obtain ⟨ds, ds', e, hnone, hds⟩ := src.checkFunction_eq c f
  rw [e] at hd
  rcases List.mem_append.1 hd with hd | hd
  · rcases hds with rfl | ⟨b, hb, rfl⟩
    · cases hd
    · obtain ⟨⟨w, o⟩, hwo, n, hok, hspan⟩ := exists_newVariable_of_mem_reportWrites hd hfx
      obtain ⟨i, hi, hw, hbi⟩ := exists_writesAt_of_mem_disallowedWrites hwo
      have hfb := Tree.parent_mem_enclosing (Tree.parent?_of_body? hb)
      obtain ⟨hagree, hwithin⟩ := newVariable_extent ht hl hf hb hbi hw hok
      exact ⟨b, w.target, hb, Tree.mem_enclosing_trans (Tree.mem_enclosing_trans hfb hbi)
        hw.mem_enclosing_target, hspan, hagree, hwithin⟩
  · rw [hnone d hd] at hfx
    cases hfx

/-! ## Reports about a file -/

/-- The edits of every fix with a new variable can all be made and lie in the outermost function
around the reported target. No fix with a new variable overlaps one of another diagnostic. -/
theorem check_fixes_clear (ht : src.tree.WellFormed) (hl : src.tree.LaidOut) (c : Config) :
    (∀ d ∈ src.check c, ∀ fx ∈ d.newFixes, fx.edits.Pairwise Edit.Agrees ∧
      ∃ f x, src.tree.Outermost f ∧ f ∈ src.tree.enclosing x ∧ d.span = src.tree.span x ∧
        ∀ e ∈ fx.edits, src.tree.start f ≤ e.start ∧ e.rangeStop ≤ src.tree.stop f) ∧
    (src.check c).Pairwise Clear := by
  unfold check
  split
  · have hnone : ∀ span what, (Diagnostic.internal span what).newFixes = [] :=
      fun _ _ => Diagnostic.newFixes_of_fixes_eq_nil rfl
    refine ⟨fun d hd fx hfx => ?_, List.pairwise_singleton _ _⟩
    rw [List.mem_singleton.1 hd, hnone] at hfx
    cases hfx
  · split
    · exact ⟨by simp, .nil⟩
    · constructor
      · intro d hd fx hfx
        obtain ⟨f, hf, hd⟩ := List.mem_flatMap.1 hd
        obtain ⟨hfsize, -, hout, -⟩ := src.mem_checkedFunctions.1 hf
        obtain ⟨b, x, hb, hfx, hspan, hagree, hwithin⟩ := checkFunction_extent ht hl hout hd hfx
        have hbody := (hl.bodies f hfsize hout.isFunction b hb).2
        refine ⟨hagree, f, x, hout, hfx, hspan, fun e he => ?_⟩
        obtain ⟨hlo, hhi⟩ := hwithin e he
        exact ⟨by omega, hhi⟩
      · refine List.pairwise_flatMap.2 ⟨fun f _ => src.checkFunction_clear c f, ?_⟩
        refine src.pairwise_lt_checkedFunctions.imp_of_mem ?_
        intro f g hf hg hfg d hd d' hd' fx hfx fx' hfx' e he e' he'
        obtain ⟨-, -, hf, -⟩ := src.mem_checkedFunctions.1 hf
        obtain ⟨hgsize, -, hg, -⟩ := src.mem_checkedFunctions.1 hg
        -- the function of the one fix ends before the body of the function of the other starts
        have happart := hl.stop_le_start_of_outermost ht hf hg hfg hgsize
        obtain ⟨_, _, -, -, -, -, hwithin⟩ := checkFunction_extent ht hl hf hd hfx
        obtain ⟨b, _, hb, -, -, -, hwithin'⟩ := checkFunction_extent ht hl hg hd' hfx'
        have hbody := (hl.bodies g hgsize hg.isFunction b hb).2
        have hlo := (hwithin' e' he').1
        exact Edit.overlaps_eq_false (hwithin e he).2 (by omega)

/-- Two declared functions and a literal outside of functions, each of which writes a parameter:

    func f(a int) { a = 1 }; func g(b int) {
      b = 2
    }; var h = func(c int) { c++ }
-/
def threeFunctions : Source :=
  .ofFile
    (Utf8.encode "package p; func f(a int) \x7b a = 1 \x7d; func g(b int) \x7b\n\tb = 2\n" ++
      Utf8.encode "\x7d; var h = func(c int) \x7b c++ \x7d\n")
    []
    #[
      ⟨"f", 7, .other⟩,
      ⟨"a", 1, .variable ⟨19, false, true, .scope 2⟩⟩,
      ⟨"int", 1, .other⟩,
      ⟨"g", 8, .other⟩,
      ⟨"b", 1, .variable ⟨44, false, true, .scope 3⟩⟩,
      ⟨"h", 9, .variable ⟨67, false, true, .package⟩⟩,
      ⟨"c", 1, .variable ⟨76, false, true, .scope 4⟩⟩]
    #[
      ⟨.predeclared, ⟨0, 0⟩, ["f", "g", "h"]⟩,
      ⟨.scope 0, ⟨1, 91⟩, []⟩,
      ⟨.scope 1, ⟨12, 35⟩, ["a"]⟩,
      ⟨.scope 1, ⟨37, 61⟩, ["b"]⟩,
      ⟨.scope 1, ⟨71, 90⟩, ["c"]⟩]
    #[
      ⟨.file none, none, .other, ⟨1, 90⟩, none⟩,
      ⟨.ident "p" .noObject none, some 0, .name, ⟨9, 10⟩, none⟩,
      ⟨.funcDecl true none, some 0, .decls, ⟨12, 35⟩, none⟩,
      ⟨.ident "f" (.object 0) none, some 2, .name, ⟨17, 18⟩, none⟩,
      ⟨.funcType, some 2, .type, ⟨12, 25⟩, none⟩,
      ⟨.fieldList, some 4, .params, ⟨18, 25⟩, none⟩,
      ⟨.field, some 5, .list, ⟨19, 24⟩, none⟩,
      ⟨.ident "a" (.object 1) none, some 6, .names, ⟨19, 20⟩, none⟩,
      ⟨.ident "int" .nothing (some 2), some 6, .type, ⟨21, 24⟩, none⟩,
      ⟨.blockStmt 26, some 2, .body, ⟨26, 35⟩, none⟩,
      ⟨.assignStmt .assign 30, some 9, .list, ⟨28, 33⟩, none⟩,
      ⟨.ident "a" .nothing (some 1), some 10, .lhs, ⟨28, 29⟩, none⟩,
      ⟨.basicLit .integer, some 10, .rhs, ⟨32, 33⟩, some 1⟩,
      ⟨.funcDecl true none, some 0, .decls, ⟨37, 61⟩, none⟩,
      ⟨.ident "g" (.object 3) none, some 13, .name, ⟨42, 43⟩, none⟩,
      ⟨.funcType, some 13, .type, ⟨37, 50⟩, none⟩,
      ⟨.fieldList, some 15, .params, ⟨43, 50⟩, none⟩,
      ⟨.field, some 16, .list, ⟨44, 49⟩, none⟩,
      ⟨.ident "b" (.object 4) none, some 17, .names, ⟨44, 45⟩, none⟩,
      ⟨.ident "int" .nothing (some 2), some 17, .type, ⟨46, 49⟩, none⟩,
      ⟨.blockStmt 51, some 13, .body, ⟨51, 61⟩, none⟩,
      ⟨.assignStmt .assign 56, some 20, .list, ⟨54, 59⟩, none⟩,
      ⟨.ident "b" .nothing (some 4), some 21, .lhs, ⟨54, 55⟩, none⟩,
      ⟨.basicLit .integer, some 21, .rhs, ⟨58, 59⟩, some 1⟩,
      ⟨.genDecl false none, some 0, .decls, ⟨63, 90⟩, none⟩,
      ⟨.valueSpec none, some 24, .specs, ⟨67, 90⟩, none⟩,
      ⟨.ident "h" (.object 5) none, some 25, .names, ⟨67, 68⟩, none⟩,
      ⟨.funcLit, some 25, .other, ⟨71, 90⟩, none⟩,
      ⟨.funcType, some 27, .type, ⟨71, 82⟩, none⟩,
      ⟨.fieldList, some 28, .params, ⟨75, 82⟩, none⟩,
      ⟨.field, some 29, .list, ⟨76, 81⟩, none⟩,
      ⟨.ident "c" (.object 6) none, some 30, .names, ⟨76, 77⟩, none⟩,
      ⟨.ident "int" .nothing (some 2), some 30, .type, ⟨78, 81⟩, none⟩,
      ⟨.blockStmt 83, some 27, .body, ⟨83, 90⟩, none⟩,
      ⟨.incDecStmt .increment, some 33, .list, ⟨85, 88⟩, none⟩,
      ⟨.ident "c" .nothing (some 6), some 34, .x, ⟨85, 86⟩, none⟩]

/-- Each of the three functions is offered a fix, and the fixes are clear of each other. -/
theorem check_fixes_clear_threeFunctions :
    (threeFunctions.check .initial).map (fun d => d.newFixes.map (·.edits)) =
        [[[⟨28, some 29, "a1"⟩, ⟨30, some 31, ":="⟩]], [[⟨54, some 55, "b1"⟩, ⟨56, some 57, ":="⟩]],
          [[⟨85, some 88, "c1 := c + 1"⟩]]] ∧
      (threeFunctions.check .initial).Pairwise Clear :=
  ⟨by decide +kernel, (check_fixes_clear (by decide +kernel) (by decide +kernel) .initial).2⟩

end Source

end AssignOnce
