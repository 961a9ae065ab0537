import AssignOnce.Proofs.Check.Conflicts

/-!
# What a check reports

The diagnostics of a file are of two kinds, besides failures of the tool itself. Those about writes
belong to the disallowed writes in the bodies of the checked functions (`Source.reportedWrites`),
and those about directives to what the audits of these functions and of the literals in them find
(`Source.reportedFindings`). In both, what stands on a line that is switched off is left out.
-/

namespace AssignOnce

namespace Diagnostic

/-- Whether a diagnostic reports an unnecessary directive or entry. -/
def isUnnecessary (d : Diagnostic) : Bool :=
  d.category == Rule.unnecessaryPermission.id || d.category == Rule.unnecessaryDirective.id

theorem isReassignment_internal (span : Span) (what : String) :
    (internal span what).isReassignment = false := by
  simp [isReassignment, internal, Rule.reassignment]

theorem isUnnecessary_internal (span : Span) (what : String) :
    (internal span what).isUnnecessary = false := by
  simp [isUnnecessary, internal, Rule.unnecessaryPermission, Rule.unnecessaryDirective]

theorem isUnnecessary_of_category {d : Diagnostic} (h : d.category = Rule.reassignment.id) :
    d.isUnnecessary = false := by
  simp [isUnnecessary, h, Rule.reassignment, Rule.unnecessaryPermission, Rule.unnecessaryDirective]

end Diagnostic

namespace Finding

/-- The report about an unnecessary directive or entry. -/
def report (fi : Finding) : Diagnostic :=
  match fi.entry with
  | some e => Rule.unnecessaryPermission.diagnostic e.span e.name
  | none => Rule.unnecessaryDirective.diagnostic fi.permission.span (toolName ++ ":allow")

theorem isUnnecessary_report (fi : Finding) : fi.report.isUnnecessary := by
  unfold report
  split <;> rfl

theorem not_isReassignment_report (fi : Finding) : ¬ fi.report.isReassignment := by
  intro h
  have := Diagnostic.isUnnecessary_of_category (by simpa [Diagnostic.isReassignment] using h)
  simp [fi.isUnnecessary_report] at this

end Finding

namespace Source

open Diagnostic (reassignments)

variable (src : Source)

/-- The functions of a file that are checked, with their bodies. -/
def checkedBodies (c : Config) : List (Nat × Nat) :=
  if src.file.located && !src.skips c then
    src.checkedFunctions.filterMap fun f => (src.tree.body? f).map fun b => (f, b)
  else []

/-- The writes to variables that are reported in a file. -/
def reportedWrites (c : Config) : List (Write × Nat) :=
  if c.reportsWrites then
    (src.checkedBodies c).flatMap fun (_, b) =>
      (src.disallowedWrites c.policy b).filter fun (w, _) =>
        !src.file.suppressedAt (src.tree.start w.target)
  else []

/-- The unnecessary directives and entries that are reported in a file. -/
def reportedFindings (c : Config) : List Finding :=
  if c.reportsUnused then
    (src.checkedBodies c).flatMap fun (f, _) =>
      ((src.tree.functionsBelow f).flatMap (src.audit c.policy)).filter fun fi =>
        !src.file.suppressedAt fi.permission.span.start
  else []

variable {src}

theorem mem_checkedBodies {c : Config} {f b : Nat} (h : (f, b) ∈ src.checkedBodies c) :
    f ∈ src.checkedFunctions ∧ src.tree.body? f = some b := by
  unfold checkedBodies at h
  split at h
  · obtain ⟨f', hf, heq⟩ := List.mem_filterMap.1 h
    obtain ⟨b', hb, rfl, rfl⟩ : ∃ b', src.tree.body? f' = some b' ∧ f' = f ∧ b' = b := by
      simpa using heq
    exact ⟨hf, hb⟩
  · cases h

/-- The diagnostics of a kind, body by body, if no failure of the tool is of that kind. -/
theorem filter_check {p : Diagnostic → Bool}
    (hp : ∀ span what, p (.internal span what) = false) (c : Config) :
    (src.check c).filter p = (src.checkedBodies c).flatMap fun (f, b) =>
      (if c.reportsWrites then (src.checkWrites c b).filter p else []) ++
        if c.reportsUnused then (src.checkPermissions c f).filter p else [] := by
  unfold check checkedBodies
  cases src.file.located with
  | false => simp [hp]
  | true =>
    cases src.skips c with
    | true => rfl
    | false =>
      simp only [Bool.not_true, Bool.false_eq_true, if_false, Bool.not_false, Bool.and_true,
        if_true, List.filter_flatMap, List.filterMap_eq_flatMap_toList, List.flatMap_assoc]
      -- a function without a body is not checked and gives nothing on either side
      congr 1
      funext f
      unfold checkFunction
      cases src.tree.body? f with
      | none => rfl
      | some b =>
        simp only [Option.map_some, Option.toList_some, List.flatMap_singleton, List.filter_append]
        split <;> split <;> rfl

theorem category_of_mem_reportWrite {cancelled withFixes : Bool} {r : Reporter} {w : Write}
    {o : Nat} {d : Diagnostic} (hd : d ∈ (src.reportWrite cancelled withFixes r w o).1) :
    d.category = Rule.reassignment.id ∨ ∃ span what, d = .internal span what := by
  unfold reportWrite at hd
  simp only at hd
  split at hd
  · cases hd
  · split at hd
    · rcases List.mem_append.1 hd with hd | hd
      · unfold propose at hd
        simp only at hd
        split at hd
        · cases hd
        · exact .inr ⟨_, _, List.mem_singleton.1 hd⟩
        · cases hd
      · rw [List.mem_singleton.1 hd]
        exact .inl rfl
    · rw [List.mem_singleton.1 hd]
      exact .inl rfl

/-- A diagnostic about some writes reports one of them, or a failure of the tool. -/
theorem category_of_mem_reportWrites {cancelled withFixes : Bool} {r : Reporter}
    {wos : List (Write × Nat)} {d : Diagnostic}
    (hd : d ∈ src.reportWrites cancelled withFixes r wos) :
    d.category = Rule.reassignment.id ∨ ∃ span what, d = .internal span what := by
  induction wos generalizing r with
  | nil => cases hd
  | cons wo wos ih =>
    rcases List.mem_append.1 hd with hd | hd
    · exact category_of_mem_reportWrite hd
    · exact ih hd

theorem reportFinding_eq (fi : Finding) : src.reportFinding fi =
    if src.file.suppressedAt fi.permission.span.start then [] else [fi.report] := by
  unfold reportFinding Finding.report
  cases fi.entry <;> rfl

/-- The reports about the directives of a function and of the literals in it. -/
theorem checkPermissions_eq (c : Config) (f : Nat) : src.checkPermissions c f =
    (((src.tree.functionsBelow f).flatMap (src.audit c.policy)).filter fun fi =>
      !src.file.suppressedAt fi.permission.span.start).map Finding.report := by
  unfold checkPermissions
  induction (src.tree.functionsBelow f).flatMap (src.audit c.policy) with
  | nil => rfl
  | cons fi fis ih =>
    rw [List.flatMap_cons, ih, reportFinding_eq, List.filter_cons]
    cases src.file.suppressedAt fi.permission.span.start <;> rfl

/-- The reports about writes, body by body. -/
theorem filter_isReassignment_check (c : Config) : (src.check c).filter Diagnostic.isReassignment =
    if c.reportsWrites then
      (src.checkedBodies c).flatMap fun (_, b) =>
        (src.checkWrites c b).filter Diagnostic.isReassignment
    else [] := by
  have hnone (f : Nat) : (src.checkPermissions c f).filter Diagnostic.isReassignment = [] := by
    rw [checkPermissions_eq, List.filter_map, List.map_eq_nil_iff]
    exact List.filter_eq_nil_iff.2 fun fi _ => fi.not_isReassignment_report
  rw [filter_check Diagnostic.isReassignment_internal]
  simp only [hnone, ite_self, List.append_nil]
  split
  · rfl
  · simp

/-- The reports about writes are those about the reported writes. -/
theorem reassignments_check_eq (c : Config) :
    reassignments (src.check c) = (src.reportedWrites c).map src.breachReport := by
  unfold reassignments reportedWrites
  rw [filter_isReassignment_check]
  split
  · simp only [List.map_flatMap, ← src.reassignments_reportWrites false (!src.file.isGenerated)
      (.ofLimit c.maxTries)]
    rfl
  · rfl

/-- The reports about directives are those about the reported findings. -/
theorem filter_isUnnecessary_check (c : Config) : (src.check c).filter Diagnostic.isUnnecessary =
    (src.reportedFindings c).map Finding.report := by
  have hnone (b : Nat) : (src.checkWrites c b).filter Diagnostic.isUnnecessary = [] := by
    refine List.filter_eq_nil_iff.2 fun d hd => ?_
    rcases category_of_mem_reportWrites hd with hcategory | ⟨span, what, rfl⟩
    · simp [Diagnostic.isUnnecessary_of_category hcategory]
    · simp [Diagnostic.isUnnecessary_internal]
  have hall (f : Nat) : (src.checkPermissions c f).filter Diagnostic.isUnnecessary =
      src.checkPermissions c f := by
    rw [checkPermissions_eq, List.filter_map]
    congr 1
    exact List.filter_eq_self.2 fun fi _ => fi.isUnnecessary_report
  rw [filter_check Diagnostic.isUnnecessary_internal, reportedFindings]
  simp only [hnone, hall, ite_self, List.nil_append]
  split
  · simp only [checkPermissions_eq, List.map_flatMap]
  · simp

end Source

end AssignOnce
