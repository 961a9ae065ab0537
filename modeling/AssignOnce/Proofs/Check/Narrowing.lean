import AssignOnce.Proofs.Check.Reported

/-!
# Leaving out parameters and arguments

A configuration may leave out the writes to parameters and receivers, and those through arguments
(`Config.Narrows`). A write that is left out is no longer reported, and no longer a reason for a
directive. So of the reports about writes some go away and all others stay (`Source.counts`), while
what is unnecessary in a directive stays unnecessary: an entry may be reported with its whole
directive instead of by itself, but it does not get lost (`Source.check_of_narrows`).
-/

namespace AssignOnce

namespace Policy

/-- Whether a policy counts no writes that another one does not count. -/
structure Narrows (policy' policy : Policy) : Prop where
  outArgs : policy'.outArgs → policy.outArgs
  params : policy'.params → policy.params

end Policy

namespace Config

/-- Whether a configuration differs from another one at most in that it leaves out parameters or
arguments, as far as the diagnostics without their fixes are concerned. -/
structure Narrows (c' c : Config) : Prop where
  checks : c'.checks = c.checks
  checksGenerated : c'.checksGenerated = c.checksGenerated
  policy : c'.policy.Narrows c.policy

theorem Narrows.trans {c₁ c₂ c₃ : Config} (h : c₁.Narrows c₂) (h' : c₂.Narrows c₃) :
    c₁.Narrows c₃ where
  checks := h.checks.trans h'.checks
  checksGenerated := h.checksGenerated.trans h'.checksGenerated
  policy :=
    { outArgs := fun ho => h'.policy.outArgs (h.policy.outArgs ho)
      params := fun hp => h'.policy.params (h.policy.params hp) }

theorem narrows_outArgs (c : Config) : ((Setting.outArgs false).apply c).Narrows c where
  checks := rfl
  checksGenerated := Flags.enabled_set_of_disjoint (by decide)
  policy := ⟨Flags.enabled_of_enabled_set_false, Flags.enabled_of_enabled_set_false⟩

theorem narrows_params (c : Config) : ((Setting.params false).apply c).Narrows c where
  checks := rfl
  checksGenerated := Flags.enabled_set_of_disjoint (by decide)
  policy := ⟨Flags.enabled_of_enabled_set_false, Flags.enabled_of_enabled_set_false⟩

end Config

namespace Finding

/-- Whether an entry is valid and a finding reports it, by itself or with its whole directive. -/
def Covers (fi : Finding) (e : Entry) : Prop :=
  e ∈ fi.permission.entries ∧ e.valid ∧ (fi.entry = none ∨ fi.entry = some e)

end Finding

namespace Permission

variable {p : Permission} {written : List String}

theorem permission_of_mem_findings {fi : Finding} (h : fi ∈ p.findings written) :
    fi.permission = p := by
  unfold findings at h
  simp only at h
  split at h
  · obtain ⟨e, -, rfl⟩ := List.mem_map.1 h
    rfl
  · rw [List.mem_singleton.1 h]

/-- The valid entries that are reported are those whose names are not written. -/
theorem exists_covers_iff {e : Entry} : (∃ fi ∈ p.findings written, fi.Covers e) ↔
    e ∈ p.entries ∧ e.valid ∧ e.name ∉ written := by
  constructor
  · rintro ⟨fi, hfi, he, hv, hentry⟩
    rw [permission_of_mem_findings hfi] at he
    refine ⟨he, hv, ?_⟩
    unfold findings at hfi
    simp only at hfi
    split at hfi
    · obtain ⟨e', he', rfl⟩ := List.mem_map.1 hfi
      obtain rfl : e' = e := by simpa using hentry
      simpa using (List.mem_filter.1 he').2
    · -- a directive is reported as a whole only if none of its valid entries is written
      rename_i hnone
      intro hwritten
      exact hnone (List.any_eq_true.2 ⟨e, List.mem_filter.2 ⟨he, hv⟩, by simpa using hwritten⟩)
  · rintro ⟨he, hv, hwritten⟩
    unfold findings
    simp only
    split
    · refine ⟨⟨p, some e⟩, List.mem_map_of_mem ?_, he, hv, .inr rfl⟩
      exact List.mem_filter.2 ⟨List.mem_filter.2 ⟨he, hv⟩, by simpa using hwritten⟩
    · exact ⟨⟨p, none⟩, List.mem_singleton_self _, he, hv, .inl rfl⟩

end Permission

namespace Source

open Diagnostic (reassignments)

variable {src : Source}

/-- Whether a variable is declared as a parameter or receiver. -/
def isParameter (src : Source) (o : Nat) : Bool :=
  (src.declaration? o).any fun i => src.tree.declarationForm i == .parameter

/-- Whether a write to a variable counts under a policy. -/
def counts (src : Source) (policy : Policy) (wo : Write × Nat) : Bool :=
  (policy.outArgs || !wo.1.kind.isOutArg) && (policy.params || !src.isParameter wo.2)

theorem presumed_eq {params' params : Bool} (h : params' → params) (o : Nat) :
    src.presumed params' o = (src.presumed params o && (params' || !src.isParameter o)) := by
  unfold presumed isParameter
  cases src.package.asVariable? o with
  | none => rfl
  | some v =>
    cases src.declaration? o with
    | none => simp
    | some i =>
      cases hform : src.tree.declarationForm i with
      | plain => simp [hform]
      | parameter => cases params' <;> simp_all
      | other => simp [hform]

theorem resolved_filter (p : Write → Bool) (ws : List Write) :
    src.resolved (ws.filter p) = (src.resolved ws).filter fun wo => p wo.1 := by
  unfold resolved
  rw [List.filterMap_filter, List.filter_filterMap]
  congr 1
  funext w
  cases src.resolve? w <;> simp [Option.filter]

section Narrower

variable {policy' policy : Policy} (h : policy'.Narrows policy)
include h

/-- The disallowed writes below a node that are left. -/
theorem disallowedWrites_of_narrows (b : Nat) : src.disallowedWrites policy' b =
    (src.disallowedWrites policy b).filter (src.counts policy') := by
  unfold disallowedWrites
  rw [Tree.writes_eq_filter h.outArgs, resolved_filter, List.filter_filter, List.filter_filter]
  refine List.filter_congr fun wo _ => ?_
  simp only [disallowed, presumed_eq h.params, counts]
  ac_rfl

/-- The body of a function writes no other names than before. -/
theorem written_subset (f : Nat) : src.written policy' f ⊆ src.written policy f := by
  unfold written
  cases src.tree.body? f with
  | none => exact List.Subset.refl _
  | some b =>
    intro name hname
    obtain ⟨w, hw, hwn⟩ := List.mem_filterMap.1 hname
    refine List.mem_filterMap.2 ⟨w, ?_, ?_⟩
    · rw [Tree.writes_eq_filter h.outArgs] at hw
      exact (List.mem_filter.1 hw).1
    · cases ho : src.resolve? w with
      | none => simp [ho] at hwn
      | some o =>
        simp only [ho, presumed_eq h.params, Bool.and_eq_true] at hwn ⊢
        grind

/-- The entries that are unnecessary in the directives of a function stay so. -/
theorem exists_covers_audit {f : Nat} {fi : Finding} {e : Entry}
    (hfi : fi ∈ src.audit policy f) (he : fi.Covers e) :
    ∃ fi' ∈ src.audit policy' f, fi'.permission = fi.permission ∧ fi'.Covers e := by
  obtain ⟨p, hp, hfi⟩ := List.mem_flatMap.1 hfi
  obtain ⟨hentry, hvalid, hnot⟩ := Permission.exists_covers_iff.1 ⟨fi, hfi, he⟩
  obtain ⟨fi', hfi', he'⟩ := Permission.exists_covers_iff.2
    ⟨hentry, hvalid, fun hw => hnot (written_subset h f hw)⟩
  refine ⟨fi', List.mem_flatMap.2 ⟨p, hp, hfi'⟩, ?_, he'⟩
  rw [Permission.permission_of_mem_findings hfi, Permission.permission_of_mem_findings hfi']

end Narrower

section Narrower

variable {c' c : Config} (h : c'.Narrows c)
include h

theorem checkedBodies_of_narrows : src.checkedBodies c' = src.checkedBodies c := by
  unfold checkedBodies skips
  rw [h.checksGenerated]

/-- The reported writes that are left. -/
theorem reportedWrites_of_narrows :
    src.reportedWrites c' = (src.reportedWrites c).filter (src.counts c'.policy) := by
  unfold reportedWrites Config.reportsWrites
  rw [checkedBodies_of_narrows h, h.checks]
  split
  · simp only [disallowedWrites_of_narrows h.policy, List.filter_flatMap, List.filter_filter,
      Bool.and_comm]
  · rfl

/-- The entries that are reported as unnecessary are reported again. -/
theorem exists_covers_reportedFindings {fi : Finding} (hfi : fi ∈ src.reportedFindings c)
    {e : Entry} (he : fi.Covers e) :
    ∃ fi' ∈ src.reportedFindings c', fi'.permission = fi.permission ∧ fi'.Covers e := by
  unfold reportedFindings Config.reportsUnused at hfi ⊢
  rw [checkedBodies_of_narrows h, h.checks]
  split at hfi
  · rename_i hunused
    rw [if_pos hunused]
    obtain ⟨fb, hfb, hfi⟩ := List.mem_flatMap.1 hfi
    obtain ⟨hfi, hshown⟩ := List.mem_filter.1 hfi
    obtain ⟨g, hg, hfi⟩ := List.mem_flatMap.1 hfi
    obtain ⟨fi', hfi', hp, he'⟩ := exists_covers_audit h.policy hfi he
    refine ⟨fi', List.mem_flatMap.2 ⟨fb, hfb, List.mem_filter.2
      ⟨List.mem_flatMap.2 ⟨g, hg, hfi'⟩, ?_⟩⟩, hp, he'⟩
    rw [hp]
    exact hshown
  · cases hfi

/-- When parameters or arguments are left out, the reports about writes are those from before, in
their order, less the ones about writes that no longer count. Every valid entry that was reported
as unnecessary, by itself or with its directive, is reported again. -/
theorem check_of_narrows :
    reassignments (src.check c) = (src.reportedWrites c).map src.breachReport ∧
    reassignments (src.check c') =
      ((src.reportedWrites c).filter (src.counts c'.policy)).map src.breachReport ∧
    (src.check c).filter Diagnostic.isUnnecessary = (src.reportedFindings c).map Finding.report ∧
    (src.check c').filter Diagnostic.isUnnecessary = (src.reportedFindings c').map Finding.report ∧
    ∀ fi ∈ src.reportedFindings c, ∀ e, fi.Covers e →
      ∃ fi' ∈ src.reportedFindings c', fi'.permission = fi.permission ∧ fi'.Covers e := by
  refine ⟨reassignments_check_eq c, ?_, filter_isUnnecessary_check c, filter_isUnnecessary_check c',
    fun fi hfi e he => exists_covers_reportedFindings h hfi he⟩
  rw [← reportedWrites_of_narrows h]
  exact reassignments_check_eq c'

end Narrower

/-- A function with a directive above it, which writes its parameters and a variable of its own:

    //reassignguard:allow a, z
    func f(a, b int) {
      y := 1
      a = 1
      b = 2
      y = 3
      g(&y)
    }
-/
def allowedParameter : Source :=
  .ofFile
    (Utf8.encode "package p\n\nfunc g(*int)\n\n//reassignguard:allow a, z\n" ++
      Utf8.encode "func f(a, b int) \x7b\n\ty := 1\n\ta = 1\n\tb = 2\n\ty = 3\n\tg(&y)\n\x7d\n")
    [⟨[⟨⟨26, 52⟩, "//reassignguard:allow a, z"⟩]⟩]
    #[
      ⟨"g", 7, .other⟩,
      ⟨"int", 1, .other⟩,
      ⟨"f", 8, .other⟩,
      ⟨"a", 1, .variable ⟨60, false, true, .scope 3⟩⟩,
      ⟨"b", 1, .variable ⟨63, false, true, .scope 3⟩⟩,
      ⟨"y", 1, .variable ⟨73, false, true, .scope 3⟩⟩]
    #[
      ⟨.predeclared, ⟨0, 0⟩, ["f", "g"]⟩,
      ⟨.scope 0, ⟨1, 110⟩, []⟩,
      ⟨.scope 1, ⟨12, 24⟩, []⟩,
      ⟨.scope 1, ⟨53, 109⟩, ["a", "b", "y"]⟩]
    #[
      ⟨.file none, none, .other, ⟨1, 109⟩, none⟩,
      ⟨.ident "p" .noObject none, some 0, .name, ⟨9, 10⟩, none⟩,
      ⟨.funcDecl false none, some 0, .decls, ⟨12, 24⟩, none⟩,
      ⟨.ident "g" (.object 0) none, some 2, .name, ⟨17, 18⟩, none⟩,
      ⟨.funcType, some 2, .type, ⟨12, 24⟩, none⟩,
      ⟨.fieldList, some 4, .params, ⟨18, 24⟩, none⟩,
      ⟨.field, some 5, .list, ⟨19, 23⟩, none⟩,
      ⟨.starExpr, some 6, .type, ⟨19, 23⟩, none⟩,
      ⟨.ident "int" .nothing (some 1), some 7, .x, ⟨20, 23⟩, none⟩,
      ⟨.funcDecl true (some 0), some 0, .decls, ⟨53, 109⟩, none⟩,
      ⟨.commentGroup, some 9, .other, ⟨26, 52⟩, none⟩,
      ⟨.comment, some 10, .list, ⟨26, 52⟩, none⟩,
      ⟨.ident "f" (.object 2) none, some 9, .name, ⟨58, 59⟩, none⟩,
      ⟨.funcType, some 9, .type, ⟨53, 69⟩, none⟩,
      ⟨.fieldList, some 13, .params, ⟨59, 69⟩, none⟩,
      ⟨.field, some 14, .list, ⟨60, 68⟩, none⟩,
      ⟨.ident "a" (.object 3) none, some 15, .names, ⟨60, 61⟩, none⟩,
      ⟨.ident "b" (.object 4) none, some 15, .names, ⟨63, 64⟩, none⟩,
      ⟨.ident "int" .nothing (some 1), some 15, .type, ⟨65, 68⟩, none⟩,
      ⟨.blockStmt 70, some 9, .body, ⟨70, 109⟩, none⟩,
      ⟨.assignStmt .define 75, some 19, .list, ⟨73, 79⟩, none⟩,
      ⟨.ident "y" (.object 5) none, some 20, .lhs, ⟨73, 74⟩, none⟩,
      ⟨.basicLit .integer, some 20, .rhs, ⟨78, 79⟩, some 1⟩,
      ⟨.assignStmt .assign 83, some 19, .list, ⟨81, 86⟩, none⟩,
      ⟨.ident "a" .nothing (some 3), some 23, .lhs, ⟨81, 82⟩, none⟩,
      ⟨.basicLit .integer, some 23, .rhs, ⟨85, 86⟩, some 1⟩,
      ⟨.assignStmt .assign 90, some 19, .list, ⟨88, 93⟩, none⟩,
      ⟨.ident "b" .nothing (some 4), some 26, .lhs, ⟨88, 89⟩, none⟩,
      ⟨.basicLit .integer, some 26, .rhs, ⟨92, 93⟩, some 1⟩,
      ⟨.assignStmt .assign 97, some 19, .list, ⟨95, 100⟩, none⟩,
      ⟨.ident "y" .nothing (some 5), some 29, .lhs, ⟨95, 96⟩, none⟩,
      ⟨.basicLit .integer, some 29, .rhs, ⟨99, 100⟩, some 1⟩,
      ⟨.exprStmt, some 19, .list, ⟨102, 107⟩, none⟩,
      ⟨.callExpr, some 32, .x, ⟨102, 107⟩, none⟩,
      ⟨.ident "g" .nothing (some 0), some 33, .other, ⟨102, 103⟩, none⟩,
      ⟨.unaryExpr (.arithmetic .and), some 33, .args, ⟨104, 106⟩, none⟩,
      ⟨.ident "y" .nothing (some 5), some 35, .x, ⟨105, 106⟩, none⟩]

/-- The directive of the function. -/
def allowAZ : Permission :=
  ⟨⟨26, 52⟩, [⟨"a", ⟨48, 49⟩, true⟩, ⟨"z", ⟨51, 52⟩, true⟩]⟩

/-- Without parameters and arguments, one of three writes is still reported, and the entry that was
unnecessary by itself is so with its whole directive. -/
theorem check_of_narrows_allowedParameter :
    let c := (Setting.outArgs false).apply ((Setting.params false).apply .initial)
    c.Narrows .initial ∧
    reassignments (allowedParameter.check .initial) =
      [(⟨.assign, 26, 27⟩, 4), (⟨.assign, 29, 30⟩, 5), (⟨.outArg 35, 32, 36⟩, 5)].map
        allowedParameter.breachReport ∧
    reassignments (allowedParameter.check c) =
      [allowedParameter.breachReport (⟨.assign, 29, 30⟩, 5)] ∧
    allowedParameter.reportedFindings .initial = [⟨allowAZ, some ⟨"z", ⟨51, 52⟩, true⟩⟩] ∧
    allowedParameter.reportedFindings c = [⟨allowAZ, none⟩] ∧
    ∃ fi ∈ allowedParameter.reportedFindings c,
      fi.permission = allowAZ ∧ fi.Covers ⟨"z", ⟨51, 52⟩, true⟩ := by
  intro c
  have hc : c.Narrows .initial := (Config.narrows_outArgs _).trans (Config.narrows_params _)
  have hwrites : allowedParameter.reportedWrites .initial =
      [(⟨.assign, 26, 27⟩, 4), (⟨.assign, 29, 30⟩, 5), (⟨.outArg 35, 32, 36⟩, 5)] := by
    decide +kernel
  have hfindings : allowedParameter.reportedFindings .initial =
      [⟨allowAZ, some ⟨"z", ⟨51, 52⟩, true⟩⟩] := by decide +kernel
  have hleft : [(⟨.assign, 26, 27⟩, 4), (⟨.assign, 29, 30⟩, 5), (⟨.outArg 35, 32, 36⟩, 5)].filter
      (allowedParameter.counts c.policy) = [(⟨.assign, 29, 30⟩, 5)] := by decide +kernel
  obtain ⟨hbefore, hafter, -, -, hcovers⟩ := allowedParameter.check_of_narrows hc
  rw [hwrites] at hbefore hafter
  rw [hleft] at hafter
  exact ⟨hc, hbefore, hafter, hfindings, by decide +kernel,
    hcovers _ (hfindings ▸ List.mem_singleton_self _) _ ⟨by decide, rfl, .inr rfl⟩⟩

end Source

end AssignOnce
