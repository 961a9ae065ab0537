import AssignOnce.Proofs.Analysis.Collection
import AssignOnce.Proofs.Analysis.Verdict
import AssignOnce.Proofs.Scope.Anchors

/-!
# What is found unnecessary

An entry of a directive is needed if the body of the function writes a variable of that name and this
write would be disallowed in the same file without directives. In such a file, disallowed are the
writes to presumed variables (`Source.disallowed_of_hasNoDirectives`), and so the needed names are
those that an audit collects (`Source.mem_presumedNames`). For each directive an audit then finds
what `Permission.Judged` says.
-/

namespace AssignOnce

namespace Permission

/-- The valid entries whose names are not needed, in their order. -/
inductive Unneeded (needed : String → Prop) : List Entry → List Entry → Prop
  | nil : Unneeded needed [] []
  | invalid {e : Entry} {es unneeded : List Entry} : e.valid = false →
      Unneeded needed es unneeded → Unneeded needed (e :: es) unneeded
  | needed {e : Entry} {es unneeded : List Entry} : e.valid → needed e.name →
      Unneeded needed es unneeded → Unneeded needed (e :: es) unneeded
  | unneeded {e : Entry} {es unneeded : List Entry} : e.valid → ¬ needed e.name →
      Unneeded needed es unneeded → Unneeded needed (e :: es) (e :: unneeded)

/-- What is found about a directive: the whole directive if none of its valid entries is needed, and
otherwise each valid entry that is not. -/
inductive Judged (needed : String → Prop) (p : Permission) : List Finding → Prop
  | whole : (∀ e ∈ p.entries, e.valid → ¬ needed e.name) → Judged needed p [⟨p, none⟩]
  | single {unneeded : List Entry} : (∃ e ∈ p.entries, e.valid ∧ needed e.name) →
      Unneeded needed p.entries unneeded → Judged needed p (unneeded.map fun e => ⟨p, some e⟩)

variable {needed : String → Prop}

theorem Unneeded.mem {es unneeded : List Entry} (h : Unneeded needed es unneeded) {e : Entry}
    (he : e ∈ es) (hv : e.valid) (hn : ¬ needed e.name) : e ∈ unneeded := by
  induction h with
  | nil => exact he
  | invalid hinvalid _ ih =>
    rcases List.mem_cons.1 he with rfl | he
    · rw [hinvalid] at hv
      cases hv
    · exact ih he
  | needed _ hneeded _ ih =>
    rcases List.mem_cons.1 he with rfl | he
    · exact absurd hneeded hn
    · exact ih he
  | unneeded _ _ _ ih =>
    rcases List.mem_cons.1 he with rfl | he
    · exact List.mem_cons_self
    · exact List.mem_cons_of_mem _ (ih he)

/-- A valid entry that is not needed is found, by itself or with its directive. -/
theorem Judged.mem {p : Permission} {findings : List Finding} (h : p.Judged needed findings)
    {e : Entry} (he : e ∈ p.entries) (hv : e.valid) (hn : ¬ needed e.name) :
    ⟨p, none⟩ ∈ findings ∨ ⟨p, some e⟩ ∈ findings := by
  cases h with
  | whole => exact .inl (List.mem_singleton_self _)
  | single _ hunneeded => exact .inr (List.mem_map_of_mem (hunneeded.mem he hv hn))

variable {written : List String} (hw : ∀ name, name ∈ written ↔ needed name)
include hw

theorem unneeded_filter (es : List Entry) :
    Unneeded needed es ((es.filter (·.valid)).filter fun e => !written.contains e.name) := by
  induction es with
  | nil => exact .nil
  | cons e es ih =>
    by_cases hv : e.valid
    · rw [List.filter_cons_of_pos hv]
      by_cases hn : needed e.name
      · rw [List.filter_cons_of_neg (by simpa using (hw e.name).2 hn)]
        exact .needed hv hn ih
      · rw [List.filter_cons_of_pos (by simpa using fun hm => hn ((hw e.name).1 hm))]
        exact .unneeded hv hn ih
    · rw [List.filter_cons_of_neg hv]
      exact .invalid (Bool.not_eq_true _ ▸ hv) ih

theorem judged_findings (p : Permission) : p.Judged needed (p.findings written) := by
  have hany : (p.entries.filter (·.valid)).any (fun e => written.contains e.name) ↔
      ∃ e ∈ p.entries, e.valid ∧ needed e.name := by
    simp [hw]
  unfold findings
  dsimp only
  split
  · exact .single (hany.1 ‹_›) (unneeded_filter hw p.entries)
  · rename_i hnone
    exact .whole fun e he hv hn => hnone (hany.2 ⟨e, he, hv, hn⟩)

end Permission

namespace SourceFile

/-- Whether no comment of a file is a directive. -/
def HasNoDirectives (file : SourceFile) : Prop :=
  ∀ g ∈ file.groups, Permission.ofGroup g = []

instance (file : SourceFile) : Decidable file.HasNoDirectives :=
  inferInstanceAs (Decidable (∀ g ∈ file.groups, _))

theorem HasNoDirectives.permissionsOf_eq {file : SourceFile} (h : file.HasNoDirectives) (f : Nat) :
    file.permissionsOf f = [] := by
  unfold permissionsOf
  split
  · rename_i g hg
    exact h g (mem_groups_of_anchorComments? hg)
  · rfl

end SourceFile

namespace Source

variable {src : Source}

/-- Without directives, all writes to presumed variables are disallowed. -/
theorem disallowed_of_hasNoDirectives (h : src.file.HasNoDirectives) (params : Bool)
    (o node : Nat) : src.disallowed params o node = src.presumed params o := by
  have hpermits : ∀ f name, src.permits f name = false := by
    intro f name
    rw [permits, h.permissionsOf_eq]
    rfl
  simp [disallowed, hpermits]

theorem mem_presumedNames {params : Bool} {ws : List Write} {name : String} :
    name ∈ src.presumedNames params ws ↔
      ∃ w ∈ ws, ∃ o, src.resolve? w = some o ∧ src.presumed params o ∧ src.nameOf o = name := by
  unfold presumedNames
  rw [List.mem_filterMap]
  refine exists_congr fun w => and_congr_right fun _ => ?_
  cases src.resolve? w with
  | none => simp
  | some o => simp

/-- Whether a variable of a name is written below a node, at a place where this is disallowed by some
measure. -/
def WritesDisallowed (src : Source) (outArgs : Bool) (b : Nat) (disallowed : Nat → Nat → Prop)
    (name : String) : Prop :=
  ∃ i ∈ src.tree.subtree b, ∃ w, src.tree.Site outArgs i w ∧
    ∃ o, src.resolve? w = some o ∧ src.nameOf o = name ∧ disallowed o w.target

section Audit

variable {policy : Policy} {f : Nat}

/-- The names that an audit collects are needed if all writes to presumed variables are
disallowed. -/
theorem mem_written_iff {b : Nat} (hb : src.tree.body? f = some b) {disallowed : Nat → Nat → Prop}
    (hd : ∀ o node, disallowed o node ↔ src.presumed policy.params o) {name : String} :
    name ∈ src.written policy f ↔ src.WritesDisallowed policy.outArgs b disallowed name := by
  rw [written, hb]
  dsimp only
  rw [mem_presumedNames]
  constructor
  · rintro ⟨w, hw, o, ho, hp, hname⟩
    obtain ⟨i, hi, hsite⟩ := Tree.mem_writes_iff.1 hw
    exact ⟨i, hi, w, hsite, o, ho, hname, (hd o w.target).2 hp⟩
  · rintro ⟨i, hi, w, hsite, o, ho, hname, hdisallowed⟩
    have hw := Tree.mem_writes_iff.2 ⟨i, hi, hsite⟩
    exact ⟨w, hw, o, ho, (hd o w.target).1 hdisallowed, hname⟩

theorem auditUnless_false (policy : Policy) (f : Nat) :
    src.auditUnless false policy f = .ok (src.audit policy f) := by
  unfold auditUnless
  split
  · rename_i hempty
    rw [audit, List.isEmpty_iff.1 hempty]
    rfl
  · cases src.tree.body? f with
    | none => rfl
    | some b => rfl

variable {needed : String → Prop} (hw : ∀ name, name ∈ src.written policy f ↔ needed name)
include hw

/-- An audit judges the directives of a function one after the other. -/
theorem exists_judged_audit : ∃ parts,
    List.Forall₂ (Permission.Judged needed) (src.file.permissionsOf f) parts ∧
      src.audit policy f = parts.flatten := by
  refine ⟨(src.file.permissionsOf f).map (·.findings (src.written policy f)), ?_, rfl⟩
  rw [List.forall₂_map_right_iff, List.forall₂_same]
  exact fun p _ => Permission.judged_findings hw p

/-- A valid entry of a directive that is not found is needed. -/
theorem needed_of_notMem_audit {p : Permission} (hp : p ∈ src.file.permissionsOf f) {e : Entry}
    (he : e ∈ p.entries) (hv : e.valid) (hwhole : ⟨p, none⟩ ∉ src.audit policy f)
    (hsingle : ⟨p, some e⟩ ∉ src.audit policy f) : needed e.name := by
  by_contra hn
  rcases (Permission.judged_findings hw p).mem he hv hn with hmem | hmem
  · exact hwhole (List.mem_flatMap.2 ⟨p, hp, hmem⟩)
  · exact hsingle (List.mem_flatMap.2 ⟨p, hp, hmem⟩)

end Audit

/-- There is always a file with the same code and without directives. -/
theorem exists_hasNoDirectives (src : Source) : ∃ src₀ : Source,
    src.SameCode src₀ true id id ∧ src₀.file.HasNoDirectives := by
  refine ⟨{ src with file := { src.file with groups := [] } }, ?_, nofun⟩
  have hmoved : Object.moved id = id := by
    funext ⟨name, type, kind⟩
    cases kind <;> rfl
  exact
    { mono := fun _ _ _ _ => id
      zero := rfl
      bounds := rfl
      parts := (List.map_id _).symm
      found := fun i _ => ⟨Option.map_id'.symm, rfl, rfl, rfl, rfl⟩
      above := fun i _ p hp => Tree.mem_parts_true (Tree.parent_lt_size hp)
      objects := by rw [hmoved, Array.map_id]
      widths := fun _ _ _ _ => rfl
      parsed := nofun }

/-- An uncancelled audit of a function with a body finds, directive by directive, the whole directive
if none of its valid entries is needed, and otherwise each valid entry that is not, in their order
and whatever has been asked before. Needed are the names of the variables that the body writes, with
the literals in it, at a place where this would be disallowed in a file with the same code and
without directives. So a valid entry that is not found, by itself or with its directive, is
needed. -/
theorem audit_findings_exact {f b : Nat} (hb : src.tree.body? f = some b) (outArgs params : Bool)
    (questions : List Classifier.Question) :
    (∃ src₀ comments place move,
      src.SameCode src₀ comments place move ∧ src₀.file.HasNoDirectives) ∧
    ∀ (src₀ : Source) (comments : Bool) (place : Nat → Nat) (move : Int → Int)
      (questions₀ : List Classifier.Question),
      src.SameCode src₀ comments place move → src₀.file.HasNoDirectives →
      let c := (Classifier.ofSource src params).afterAll questions
      let c₀ := (Classifier.ofSource src₀ params).afterAll questions₀
      let needed := src.WritesDisallowed outArgs b fun o node =>
        (c₀.verdict false o (place node)).1 = .ok true
      ∃ findings, (c.audit false outArgs f).1 = .ok findings ∧
        (∃ parts, List.Forall₂ (Permission.Judged needed) (src.file.permissionsOf f) parts ∧
          findings = parts.flatten) ∧
        ∀ p ∈ src.file.permissionsOf f, ∀ e ∈ p.entries, e.valid →
          ⟨p, none⟩ ∉ findings → ⟨p, some e⟩ ∉ findings → needed e.name := by
  refine ⟨?_, fun src₀ comments place move questions₀ hs hn => ?_⟩
  · obtain ⟨src₀, hs, hn⟩ := exists_hasNoDirectives src
    exact ⟨src₀, _, _, _, hs, hn⟩
  have haudit := ((Classifier.classifies_afterAll src params questions).audit false outArgs f).1
  have hdisallowed : ∀ o node, (((Classifier.ofSource src₀ params).afterAll questions₀).verdict
      false o (place node)).1 = .ok true ↔ src.presumed params o := by
    intro o node
    rw [verdict_afterAll, Except.ok.injEq, disallowed_of_hasNoDirectives hn, hs.presumed_eq]
  have hwritten : ∀ name, name ∈ src.written ⟨outArgs, params⟩ f ↔
      src.WritesDisallowed outArgs b _ name := fun _ => mem_written_iff hb hdisallowed
  refine ⟨_, haudit.trans (auditUnless_false _ f), exists_judged_audit hwritten, ?_⟩
  intro p hp e he hv hwhole hsingle
  exact needed_of_notMem_audit hwritten hp he hv hwhole hsingle

/-- The nodes of the comments above a declared function, which is the third node. -/
def docNodes : List Comment → List Node
  | [] => []
  | c :: cs =>
    ⟨.commentGroup, some 2, .other, CommentGroup.span ⟨c :: cs⟩, none⟩ ::
      (c :: cs).map fun c => ⟨.comment, some 3, .list, c.span, none⟩

/-- A function with a write in a literal, below some comments:

    func f() {
      x := 1
      func() { x = 2 }()
    }
-/
def documented (doc : String) (comments : List Comment) : Source :=
  let d : Int := (Utf8.encode doc).length
  let k : Nat := (docNodes comments).length
  let front : List Node := [
    ⟨.file none, none, .other, ⟨1, 52 + d⟩, none⟩,
    ⟨.ident "p" .noObject none, some 0, .name, ⟨9, 10⟩, none⟩,
    ⟨.funcDecl true (if comments = [] then none else some 0), some 0, .decls,
      ⟨12 + d, 52 + d⟩, none⟩]
  let back : List Node := [
    ⟨.ident "f" (.object 0) none, some 2, .name, ⟨17 + d, 18 + d⟩, none⟩,
    ⟨.funcType, some 2, .type, ⟨12 + d, 20 + d⟩, none⟩,
    ⟨.fieldList, some (k + 4), .params, ⟨18 + d, 20 + d⟩, none⟩,
    ⟨.blockStmt (21 + d), some 2, .body, ⟨21 + d, 52 + d⟩, none⟩,
    ⟨.assignStmt .define (26 + d), some (k + 6), .list, ⟨24 + d, 30 + d⟩, none⟩,
    ⟨.ident "x" (.object 1) none, some (k + 7), .lhs, ⟨24 + d, 25 + d⟩, none⟩,
    ⟨.basicLit .integer, some (k + 7), .rhs, ⟨29 + d, 30 + d⟩, some 1⟩,
    ⟨.exprStmt, some (k + 6), .list, ⟨32 + d, 50 + d⟩, none⟩,
    ⟨.callExpr, some (k + 10), .x, ⟨32 + d, 50 + d⟩, none⟩,
    ⟨.funcLit, some (k + 11), .other, ⟨32 + d, 48 + d⟩, none⟩,
    ⟨.funcType, some (k + 12), .type, ⟨32 + d, 38 + d⟩, none⟩,
    ⟨.fieldList, some (k + 13), .params, ⟨36 + d, 38 + d⟩, none⟩,
    ⟨.blockStmt (39 + d), some (k + 12), .body, ⟨39 + d, 48 + d⟩, none⟩,
    ⟨.assignStmt .assign (43 + d), some (k + 15), .list, ⟨41 + d, 46 + d⟩, none⟩,
    ⟨.ident "x" .nothing (some 1), some (k + 16), .lhs, ⟨41 + d, 42 + d⟩, none⟩,
    ⟨.basicLit .integer, some (k + 16), .rhs, ⟨45 + d, 46 + d⟩, some 1⟩]
  .ofFile
    (Utf8.encode "package p\n\n" ++ Utf8.encode doc ++
      Utf8.encode "func f() \x7b\n\tx := 1\n\tfunc() \x7b x = 2 \x7d()\n\x7d\n")
    (if comments = [] then [] else [⟨comments⟩])
    #[
      ⟨"f", 2, .other⟩,
      ⟨"x", 1, .variable ⟨24 + d, false, true, .scope 2⟩⟩]
    #[
      ⟨.predeclared, ⟨0, 0⟩, ["f"]⟩,
      ⟨.scope 0, ⟨1, 53 + d⟩, []⟩,
      ⟨.scope 1, ⟨12 + d, 52 + d⟩, ["x"]⟩,
      ⟨.scope 2, ⟨32 + d, 48 + d⟩, []⟩]
    (front ++ docNodes comments ++ back).toArray

/-- The function below two directives. -/
def permissive : Source :=
  documented "//reassignguard:allow x, \"y\", 1z, y\n//reassignguard:allow z\n"
    [⟨⟨12, 47⟩, "//reassignguard:allow x, \"y\", 1z, y"⟩, ⟨⟨48, 71⟩, "//reassignguard:allow z"⟩]

/-- The directives of the function: one with a quoted, an invalid and a repeated entry, and one for a
variable that it does not have. -/
def allowingQuoted : Permission :=
  ⟨⟨12, 47⟩, [⟨"x", ⟨34, 35⟩, true⟩, ⟨"y", ⟨37, 40⟩, true⟩, ⟨"1z", ⟨42, 44⟩, false⟩,
    ⟨"y", ⟨46, 47⟩, true⟩]⟩

@[inherit_doc allowingQuoted]
def allowingZ : Permission := ⟨⟨48, 71⟩, [⟨"z", ⟨70, 71⟩, true⟩]⟩

/-- The places of nodes without the comment group and its two comments. -/
def placeAbove (i : Nat) : Nat := if i < 3 then i else i - 3

/-- The positions without the lines of the comments. -/
def moveAbove (p : Int) : Int := if p < 12 then p else p - 60

theorem sameCode_permissive :
    permissive.SameCode (documented "" []) false placeAbove moveAbove where
  mono := by decide +kernel
  zero := by decide
  bounds := by decide +kernel
  parts := by decide +kernel
  found := by decide +kernel
  above := by decide +kernel
  objects := by decide +kernel
  widths := by decide +kernel
  parsed := fun _ => by decide +kernel

/-- Both entries `y` and the whole directive for `z` are found. The entry `x` is needed for the write
in the literal, which is disallowed without the directives. -/
theorem audit_findings_exact_permissive :
    let c := (Classifier.ofSource permissive true).afterAll [.verdict false 1 20]
    let c₀ := (Classifier.ofSource (documented "" []) true).afterAll [.permissions 2]
    permissive.tree.body? 2 = some 9 ∧ (documented "" []).file.HasNoDirectives ∧
      (c.audit false true 2).1 = .ok [⟨allowingQuoted, some ⟨"y", ⟨37, 40⟩, true⟩⟩,
        ⟨allowingQuoted, some ⟨"y", ⟨46, 47⟩, true⟩⟩, ⟨allowingZ, none⟩] ∧
      permissive.WritesDisallowed true 9
        (fun o node => (c₀.verdict false o (placeAbove node)).1 = .ok true) "x" := by
  have hb : permissive.tree.body? 2 = some 9 := by decide +kernel
  have hn : (documented "" []).file.HasNoDirectives := by decide +kernel
  have hpermissions : permissive.file.permissionsOf 2 = [allowingQuoted, allowingZ] := by
    decide +kernel
  obtain ⟨findings, hfindings, -, hneeded⟩ :=
    (audit_findings_exact hb true true [.verdict false 1 20]).2 _ _ _ _ [.permissions 2]
      sameCode_permissive hn
  have haudit : (((Classifier.ofSource permissive true).afterAll
      [.verdict false 1 20]).audit false true 2).1 =
        .ok [⟨allowingQuoted, some ⟨"y", ⟨37, 40⟩, true⟩⟩,
          ⟨allowingQuoted, some ⟨"y", ⟨46, 47⟩, true⟩⟩, ⟨allowingZ, none⟩] := by
    decide +kernel
  obtain rfl := Except.ok.inj (hfindings.symm.trans haudit)
  refine ⟨hb, hn, haudit, ?_⟩
  exact hneeded allowingQuoted (by simp [hpermissions]) ⟨"x", ⟨34, 35⟩, true⟩ (by decide) rfl
    (by decide) (by decide)

end Source

end AssignOnce
