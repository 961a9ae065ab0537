import AssignOnce.Check
import AssignOnce.Proofs.Sample
import AssignOnce.Proofs.Tree.Preorder

/-!
# Removing what is reported as unnecessary

A directive is judged by the writes in the body of one function, but several functions may read the
same comment: literals in one statement share the comments above it. What can be removed without
changing a verdict is therefore less than what is reported (`Source.verdicts_unchanged_iff`): a
write outside the function may need the entry.

An entry is removed by rewording its comment in place (`SourceFile.Rewords`), say by writing blanks
over it, so that nothing else in the file moves.
-/

namespace AssignOnce

/-! ## Rewording a comment -/

namespace Comment

/-- Whether a comment permits to reassign variables of a name. -/
def permits (k : Comment) (name : String) : Bool :=
  (Permission.parse? k).any (·.allows name)

/-- A comment after one comment has been exchanged for another one. -/
def reword (c c' k : Comment) : Comment :=
  if k = c then c' else k

theorem span_reword {c c' : Comment} (h : c'.span = c.span) (k : Comment) :
    (reword c c' k).span = k.span := by
  unfold reword
  split
  · rename_i e
    rw [h, e]
  · rfl

end Comment

namespace CommentGroup

/-- A group of comments after one comment has been exchanged for another one. -/
def reword (c c' : Comment) (g : CommentGroup) : CommentGroup :=
  ⟨g.comments.map (Comment.reword c c')⟩

theorem start_reword {c c' : Comment} (h : c'.span = c.span) (g : CommentGroup) :
    (g.reword c c').start = g.start := by
  unfold start reword
  rw [List.head?_map]
  cases g.comments.head? with
  | none => rfl
  | some k => exact congrArg Span.start (Comment.span_reword h k)

theorem stop_reword {c c' : Comment} (h : c'.span = c.span) (g : CommentGroup) :
    (g.reword c c').stop = g.stop := by
  unfold stop reword
  rw [List.getLast?_map]
  cases g.comments.getLast? with
  | none => rfl
  | some k => exact congrArg Span.stop (Comment.span_reword h k)

end CommentGroup

namespace SourceFile

/-- The comments that speak for a function. -/
def commentsFor (file : SourceFile) (f : Nat) : List Comment :=
  match file.commentsOf? f with
  | some g => g.comments
  | none => []

/-- Whether one file comes from another one by exchanging a comment for another one in its place.
All else stays where it is, and so do the ends of the lines. -/
structure Rewords (file : SourceFile) (c c' : Comment) (file' : SourceFile) : Prop where
  span : c'.span = c.span
  groups : file'.groups = file.groups.map (CommentGroup.reword c c')
  tree : file'.tree = file.tree
  base : file'.base = file.base
  newlines : file'.text.map (· == Lines.newline) = file.text.map (· == Lines.newline)

namespace Rewords

variable {file file' : SourceFile} {c c' : Comment} (h : file.Rewords c c' file')
include h

theorem length_text : file'.text.length = file.text.length := by
  have := congrArg List.length h.newlines
  rwa [List.length_map, List.length_map] at this

theorem bounds : file'.bounds = file.bounds := by
  unfold SourceFile.bounds
  rw [h.base, h.length_text]

theorem line (p : Int) : file'.line p = file.line p := by
  have hcount : ∀ (text : Bytes) n, Lines.number text n =
      1 + ((text.map (· == Lines.newline)).dropLast.take n).count true := by
    intro text n
    rw [← List.map_dropLast, ← List.map_take, List.count, List.countP_map, Lines.number,
      Lines.before, List.count]
    congr 2
    funext b
    simp
  unfold SourceFile.line offset
  rw [h.base, h.length_text, hcount, hcount, h.newlines]

theorem leadingComment? (limit p : Int) : file'.leadingComment? limit p =
    (file.leadingComment? limit p).map (CommentGroup.reword c c') := by
  have hlast : file'.lastGroupBefore? p =
      (file.lastGroupBefore? p).map (CommentGroup.reword c c') := by
    unfold lastGroupBefore? groupsBefore
    rw [h.groups, List.length_map,
      bisect_map fun g => by rw [CommentGroup.start_reword h.span]]
    split
    · rfl
    · rw [List.getElem?_map]
  unfold SourceFile.leadingComment?
  rw [hlast]
  cases file.lastGroupBefore? p with
  | none => rfl
  | some g =>
    simp only [Option.map_some, CommentGroup.start_reword h.span, CommentGroup.stop_reword h.span,
      h.line]
    split <;> rfl

theorem commentsOf? (f : Nat) :
    file'.commentsOf? f = (file.commentsOf? f).map (CommentGroup.reword c c') := by
  have hgroup : ∀ doc, file'.group? doc = (file.group? doc).map (CommentGroup.reword c c') := by
    intro doc
    cases doc with
    | none => rfl
    | some i => simp only [group?, Option.bind_some, h.groups, List.getElem?_map]
  unfold SourceFile.commentsOf? anchorComments?
  rw [h.tree]
  split
  · exact hgroup _
  · exact hgroup _
  · exact hgroup _
  · exact h.leadingComment? _ _

theorem commentsFor (f : Nat) :
    file'.commentsFor f = (file.commentsFor f).map (Comment.reword c c') := by
  unfold SourceFile.commentsFor
  rw [h.commentsOf?]
  cases file.commentsOf? f <;> rfl

end Rewords

end SourceFile

/-! ## Findings -/

namespace Finding

/-- What is left of a directive without the unnecessary entry, or without all entries. -/
def rest (fi : Finding) : Permission :=
  { fi.permission with
    entries := match fi.entry with
      | some e => fi.permission.entries.filter (· ≠ e)
      | none => [] }

/-- Whether a name is no longer permitted when what a finding is about is removed. -/
def removes (fi : Finding) (name : String) : Bool :=
  fi.permission.allows name && !fi.rest.allows name

end Finding

namespace Permission

theorem allows_iff {p : Permission} {name : String} :
    p.allows name ↔ ∃ e ∈ p.entries, e.valid ∧ e.name = name := by
  simp [allows, names, and_assoc]

theorem allows_of_allows_rest {fi : Finding} {name : String} (h : fi.rest.allows name) :
    fi.permission.allows name := by
  obtain ⟨e, he, hv, hname⟩ := allows_iff.1 h
  refine allows_iff.2 ⟨e, ?_, hv, hname⟩
  unfold Finding.rest at he
  split at he
  · exact (List.mem_filter.1 he).1
  · cases he

/-- No name that a finding is about is written. -/
theorem not_mem_of_removes {p : Permission} {written : List String} {fi : Finding}
    (hfi : fi ∈ p.findings written) {name : String} (h : fi.removes name) : name ∉ written := by
  simp only [Finding.removes, Bool.and_eq_true, Bool.not_eq_true', ← Bool.not_eq_true,
    allows_iff] at h
  obtain ⟨⟨e, he, hv, rfl⟩, hrest⟩ := h
  unfold findings at hfi
  simp only at hfi
  split at hfi
  · obtain ⟨e', he', rfl⟩ := List.mem_map.1 hfi
    simp only [List.mem_filter, Bool.not_eq_true', List.contains_eq_mem,
      decide_eq_false_iff_not] at he'
    -- of the valid entries with the name only the reported one is not left
    have : e = e' := Decidable.byContradiction fun hne =>
      hrest ⟨e, List.mem_filter.2 ⟨he, by simpa using hne⟩, hv, rfl⟩
    rw [this]
    exact he'.2
  · rename_i hnone
    obtain rfl := List.mem_singleton.1 hfi
    simp only [List.any_eq_true, List.mem_filter, List.contains_iff_mem, not_exists,
      not_and] at hnone
    exact hnone e ⟨he, hv⟩

end Permission

namespace Source

variable {src : Source}

/-- Whether a write to a variable is collected in the body of a function. -/
def WritesIn (src : Source) (policy : Policy) (f : Nat) (w : Write) (o : Nat) : Prop :=
  src.tree.isFunction f ∧
    ∃ b ∈ src.tree.body? f, w ∈ src.tree.writes policy.outArgs b ∧ src.resolve? w = some o

/-- A presumed variable that a function writes is none of those that a finding about the function
is about. -/
theorem removes_eq_false_of_writesIn {policy : Policy} {f : Nat} {fi : Finding}
    (hfi : fi ∈ src.audit policy f) {w : Write} {o : Nat} (hw : src.WritesIn policy f w o)
    (ho : src.presumed policy.params o) : fi.removes (src.nameOf o) = false := by
  obtain ⟨p, -, hfi⟩ := List.mem_flatMap.1 hfi
  obtain ⟨-, b, hb, hwb, hwo⟩ := hw
  have hwritten : src.nameOf o ∈ src.written policy f := by
    rw [written, Option.mem_def.1 hb]
    exact List.mem_filterMap.2 ⟨w, hwb, by simp [hwo, ho]⟩
  rw [← Bool.not_eq_true]
  exact fun h => Permission.not_mem_of_removes hfi h hwritten

theorem permits_iff {f : Nat} {name : String} :
    src.permits f name ↔ ∃ k ∈ src.file.commentsFor f, k.permits name := by
  unfold permits SourceFile.permissionsOf SourceFile.commentsFor
  cases src.file.commentsOf? f with
  | none => simp
  | some g =>
    simp only [Permission.ofGroup, List.any_filterMap, List.any_eq_true]
    refine exists_congr fun k => and_congr_right fun _ => ?_
    unfold Comment.permits
    cases Permission.parse? k <;> rfl

theorem disallowed_iff {params : Bool} {o node : Nat} : src.disallowed params o node ↔
    src.presumed params o ∧ ∀ g ∈ src.tree.functionsAround node, ∀ k ∈ src.file.commentsFor g,
      ¬ k.permits (src.nameOf o) := by
  simp only [disallowed, Bool.and_eq_true, List.all_eq_true, Bool.not_eq_true',
    ← Bool.not_eq_true, permits_iff, not_exists, not_and]

/-! ## Verdicts after a removal -/

section Removal

variable {file' : SourceFile} {c c' : Comment} (hr : src.file.Rewords c c' file') {fi : Finding}
  (hc : Permission.parse? c = some fi.permission) {p' : Permission}
  (hc' : Permission.parse? c' = some p') (hp' : p'.names = fi.rest.names)

include hr in
theorem presumed_rewords (params : Bool) (o : Nat) :
    ({ src with file := file' } : Source).presumed params o = src.presumed params o := by
  unfold presumed declaration?
  simp only [tree, hr.tree, hr.bounds, nameOf]

include hc hc' hp' in
/-- The reworded comment permits all but the names that are removed. -/
theorem permits_reword_iff {k : Comment} {name : String} :
    (Comment.reword c c' k).permits name ↔ k.permits name ∧ ¬ (k = c ∧ fi.removes name) := by
  by_cases e : k = c
  · have hk : k.permits name = fi.permission.allows name := by rw [e, Comment.permits, hc]; rfl
    have hk' : (Comment.reword c c' k).permits name = fi.rest.allows name := by
      rw [Comment.reword, if_pos e, Comment.permits, hc', Option.any_some, Permission.allows, hp']
      rfl
    have hsub : fi.rest.allows name → fi.permission.allows name := Permission.allows_of_allows_rest
    rw [hk, hk', Finding.removes]
    revert hsub
    cases fi.permission.allows name <;> cases fi.rest.allows name <;> simp [e]
  · rw [Comment.reword, if_neg e]
    simp [e]

include hr hc hc' hp' in
theorem disallowed_rewords_iff {params : Bool} {o node : Nat} :
    ({ src with file := file' } : Source).disallowed params o node ↔
      src.presumed params o ∧ ∀ g ∈ src.tree.functionsAround node, ∀ k ∈ src.file.commentsFor g,
        k.permits (src.nameOf o) → k = c ∧ fi.removes (src.nameOf o) := by
  rw [disallowed_iff, presumed_rewords hr]
  simp only [tree, hr.tree, hr.commentsFor, List.mem_map]
  refine and_congr_right fun _ => forall_congr' fun g => forall_congr' fun _ => ?_
  constructor
  · intro h k hk hpermits
    refine Decidable.byContradiction fun hne => h _ ⟨k, hk, rfl⟩ ?_
    exact (permits_reword_iff hc hc' hp').2 ⟨hpermits, hne⟩
  · rintro h _ ⟨k, hk, rfl⟩ hpermits
    obtain ⟨hold, hne⟩ := (permits_reword_iff hc hc' hp').1 hpermits
    exact hne (h k hk hold)

include hr hc hc' hp' in
/-- A removal changes the verdict about a write exactly if the variable is presumed, its name is
removed, and among the comments that speak for the functions around the write only the reworded one
permits the name. -/
theorem disallowed_rewords_eq_iff {params : Bool} {o node : Nat} :
    ({ src with file := file' } : Source).disallowed params o node = src.disallowed params o node ↔
      (src.presumed params o → fi.removes (src.nameOf o) →
        (∃ g ∈ src.tree.functionsAround node, c ∈ src.file.commentsFor g) →
        ∃ g ∈ src.tree.functionsAround node, ∃ k ∈ src.file.commentsFor g,
          k ≠ c ∧ k.permits (src.nameOf o)) := by
  rw [Bool.eq_iff_iff, disallowed_rewords_iff hr hc hc' hp', disallowed_iff]
  have hperm : fi.removes (src.nameOf o) → c.permits (src.nameOf o) := by
    intro h
    rw [Finding.removes, Bool.and_eq_true] at h
    rw [Comment.permits, hc]
    exact h.1
  constructor
  · rintro h ho hn ⟨g, hg, hcg⟩
    -- were there no other comment, the write would be disallowed only afterwards
    refine Decidable.byContradiction fun hno => ?_
    refine (h.1 ⟨ho, fun g' hg' k hk hkn => ⟨?_, hn⟩⟩).2 g hg c hcg (hperm hn)
    exact Decidable.byContradiction fun hne => hno ⟨g', hg', k, hk, hne, hkn⟩
  · intro h
    constructor
    · rintro ⟨ho, hall⟩
      refine ⟨ho, fun g hg k hk hkn => ?_⟩
      obtain ⟨rfl, hn⟩ := hall g hg k hk hkn
      obtain ⟨g', hg', k', hk', hne, hkn'⟩ := h ho hn ⟨g, hg, hk⟩
      exact hne (hall g' hg' k' hk' hkn').1
    · rintro ⟨ho, hall⟩
      exact ⟨ho, fun g hg k hk hkn => absurd hkn (hall g hg k hk)⟩

/-- Removing what a finding about a function reports leaves all verdicts about the writes in the
bodies of functions as they are, exactly if each write outside the body of that function that the
comment permits is permitted by another comment as well. -/
theorem verdicts_unchanged_iff {policy : Policy} {f : Nat} (hfi : fi ∈ src.audit policy f)
    (hc : Permission.parse? c = some fi.permission) (hr : src.file.Rewords c c' file')
    (hc' : Permission.parse? c' = some p') (hp' : p'.names = fi.rest.names) :
    (∀ g w o, src.WritesIn policy g w o →
      ({ src with file := file' } : Source).disallowed policy.params o w.target =
        src.disallowed policy.params o w.target) ↔
    ∀ g w o, src.WritesIn policy g w o → ¬ src.WritesIn policy f w o →
      src.presumed policy.params o → fi.removes (src.nameOf o) →
      (∃ g ∈ src.tree.functionsAround w.target, c ∈ src.file.commentsFor g) →
      ∃ g ∈ src.tree.functionsAround w.target, ∃ k ∈ src.file.commentsFor g,
        k ≠ c ∧ k.permits (src.nameOf o) := by
  simp only [disallowed_rewords_eq_iff hr hc hc' hp']
  constructor
  · intro h g w o hw _
    exact h g w o hw
  · intro h g w o hw ho hn
    refine h g w o hw (fun hwf => ?_) ho hn
    rw [removes_eq_false_of_writesIn hfi hwf ho] at hn
    cases hn

end Removal

/-- A function with two literals in one statement, below a comment:

    a, b := func(x int) { x = 1 }, func(y int) { y++ }
    a(1)
    b(2)
-/
def twoLiterals (c : Comment) : Source :=
  .ofFile
    (Utf8.encode "package p\n\nfunc f() \x7b\n\t" ++
      Utf8.encode c.text ++
      Utf8.encode "\n\ta, b := func(x int) \x7b x = 1 \x7d, func(y int) \x7b y++ \x7d\n" ++
      Utf8.encode "\ta(1)\n\tb(2)\n\x7d\n")
    [⟨[c]⟩]
    #[
      ⟨"f", 7, .other⟩,
      ⟨"a", 8, .variable ⟨55, false, true, .scope 2⟩⟩,
      ⟨"b", 9, .variable ⟨58, false, true, .scope 2⟩⟩,
      ⟨"x", 1, .variable ⟨68, false, true, .scope 3⟩⟩,
      ⟨"int", 1, .other⟩,
      ⟨"y", 1, .variable ⟨91, false, true, .scope 4⟩⟩]
    #[
      ⟨.predeclared, ⟨0, 0⟩, ["f"]⟩,
      ⟨.scope 0, ⟨1, 120⟩, []⟩,
      ⟨.scope 1, ⟨12, 119⟩, ["a", "b"]⟩,
      ⟨.scope 2, ⟨63, 84⟩, ["x"]⟩,
      ⟨.scope 2, ⟨86, 105⟩, ["y"]⟩]
    #[
      ⟨.file none, none, .other, ⟨1, 119⟩, none⟩,
      ⟨.ident "p" .noObject none, some 0, .name, ⟨9, 10⟩, none⟩,
      ⟨.funcDecl true none, some 0, .decls, ⟨12, 119⟩, none⟩,
      ⟨.ident "f" (.object 0) none, some 2, .name, ⟨17, 18⟩, none⟩,
      ⟨.funcType, some 2, .type, ⟨12, 20⟩, none⟩,
      ⟨.fieldList, some 4, .params, ⟨18, 20⟩, none⟩,
      ⟨.blockStmt 21, some 2, .body, ⟨21, 119⟩, none⟩,
      ⟨.assignStmt .define 60, some 6, .list, ⟨55, 105⟩, none⟩,
      ⟨.ident "a" (.object 1) none, some 7, .lhs, ⟨55, 56⟩, none⟩,
      ⟨.ident "b" (.object 2) none, some 7, .lhs, ⟨58, 59⟩, none⟩,
      ⟨.funcLit, some 7, .rhs, ⟨63, 84⟩, some 8⟩,
      ⟨.funcType, some 10, .type, ⟨63, 74⟩, none⟩,
      ⟨.fieldList, some 11, .params, ⟨67, 74⟩, none⟩,
      ⟨.field, some 12, .list, ⟨68, 73⟩, none⟩,
      ⟨.ident "x" (.object 3) none, some 13, .names, ⟨68, 69⟩, none⟩,
      ⟨.ident "int" .nothing (some 4), some 13, .type, ⟨70, 73⟩, none⟩,
      ⟨.blockStmt 75, some 10, .body, ⟨75, 84⟩, none⟩,
      ⟨.assignStmt .assign 79, some 16, .list, ⟨77, 82⟩, none⟩,
      ⟨.ident "x" .nothing (some 3), some 17, .lhs, ⟨77, 78⟩, none⟩,
      ⟨.basicLit .integer, some 17, .rhs, ⟨81, 82⟩, some 1⟩,
      ⟨.funcLit, some 7, .rhs, ⟨86, 105⟩, some 9⟩,
      ⟨.funcType, some 20, .type, ⟨86, 97⟩, none⟩,
      ⟨.fieldList, some 21, .params, ⟨90, 97⟩, none⟩,
      ⟨.field, some 22, .list, ⟨91, 96⟩, none⟩,
      ⟨.ident "y" (.object 5) none, some 23, .names, ⟨91, 92⟩, none⟩,
      ⟨.ident "int" .nothing (some 4), some 23, .type, ⟨93, 96⟩, none⟩,
      ⟨.blockStmt 98, some 20, .body, ⟨98, 105⟩, none⟩,
      ⟨.incDecStmt .increment, some 26, .list, ⟨100, 103⟩, none⟩,
      ⟨.ident "y" .nothing (some 5), some 27, .x, ⟨100, 101⟩, none⟩,
      ⟨.exprStmt, some 6, .list, ⟨107, 111⟩, none⟩,
      ⟨.callExpr, some 29, .x, ⟨107, 111⟩, none⟩,
      ⟨.ident "a" .nothing (some 1), some 30, .other, ⟨107, 108⟩, none⟩,
      ⟨.basicLit .integer, some 30, .args, ⟨109, 110⟩, none⟩,
      ⟨.exprStmt, some 6, .list, ⟨113, 117⟩, none⟩,
      ⟨.callExpr, some 33, .x, ⟨113, 117⟩, none⟩,
      ⟨.ident "b" .nothing (some 2), some 34, .other, ⟨113, 114⟩, none⟩,
      ⟨.basicLit .integer, some 34, .args, ⟨115, 116⟩, none⟩]

/-- The comment with three entries, and the same comment without one of them. -/
def allowXYZ : Comment := ⟨⟨24, 53⟩, "//reassignguard:allow x, y, z"⟩

@[inherit_doc allowXYZ]
def allowXZ : Comment := ⟨⟨24, 53⟩, "//reassignguard:allow x,    z"⟩

@[inherit_doc allowXYZ]
def allowXY : Comment := ⟨⟨24, 53⟩, "//reassignguard:allow x, y   "⟩

theorem rewords_twoLiterals {c c' : Comment} (hs : c'.span = c.span)
    (h : (twoLiterals c').file.text.map (· == Lines.newline) =
      (twoLiterals c).file.text.map (· == Lines.newline)) :
    (twoLiterals c).file.Rewords c c' (twoLiterals c').file :=
  ⟨hs, by simp [twoLiterals, ofFile, CommentGroup.reword, Comment.reword], rfl, rfl, h⟩

/-- The entry `y` is reported as unnecessary for the first literal. Without it the write of the
second literal, which was permitted, is disallowed. -/
theorem verdict_changed_twoLiterals :
    Rule.unnecessaryPermission.diagnostic ⟨49, 50⟩ "y" ∈ (twoLiterals allowXYZ).check .initial ∧
      (twoLiterals allowXYZ).file.Rewords allowXYZ allowXZ (twoLiterals allowXZ).file ∧
      (twoLiterals allowXYZ).WritesIn Config.initial.policy 20
        ⟨.incDec (.arithmetic .add), 27, 28⟩ 5 ∧
      (twoLiterals allowXYZ).disallowed true 5 28 = false ∧
      (twoLiterals allowXZ).disallowed true 5 28 = true := by
  refine ⟨by decide +kernel, rewords_twoLiterals rfl (by decide +kernel), ?_, by decide +kernel,
    by decide +kernel⟩
  exact ⟨by decide +kernel, 26, by decide +kernel, by decide +kernel, by decide +kernel⟩

/-- That `z` is unnecessary in the comment with three entries. -/
def unneededZ : Finding :=
  ⟨⟨⟨24, 53⟩, [⟨"x", ⟨46, 47⟩, true⟩, ⟨"y", ⟨49, 50⟩, true⟩, ⟨"z", ⟨52, 53⟩, true⟩]⟩,
    some ⟨"z", ⟨52, 53⟩, true⟩⟩

/-- The entry `z`, which no function needs, is reported and can be removed. -/
theorem verdicts_unchanged_twoLiterals :
    unneededZ ∈ (twoLiterals allowXYZ).audit Config.initial.policy 10 ∧
      ∀ g w o, (twoLiterals allowXYZ).WritesIn Config.initial.policy g w o →
        ({ twoLiterals allowXYZ with file := (twoLiterals allowXY).file } : Source).disallowed
            Config.initial.policy.params o w.target =
          (twoLiterals allowXYZ).disallowed Config.initial.policy.params o w.target := by
  have hfi : unneededZ ∈ (twoLiterals allowXYZ).audit Config.initial.policy 10 := by
    decide +kernel
  have hc : Permission.parse? allowXYZ = some unneededZ.permission := by decide +kernel
  have hc' : Permission.parse? allowXY = some unneededZ.rest := by decide +kernel
  have hr : (twoLiterals allowXYZ).file.Rewords allowXYZ allowXY (twoLiterals allowXY).file :=
    rewords_twoLiterals rfl (by decide +kernel)
  -- no object of the package has the name
  have hsome : ∀ o < 6, unneededZ.removes ((twoLiterals allowXYZ).nameOf o) = false := by
    decide +kernel
  have hnone : ∀ o ≥ 6, (twoLiterals allowXYZ).nameOf o = "" := by
    intro o ho
    rw [nameOf, Package.object, Array.getD_eq_getD_getElem?, Array.getElem?_eq_none ho]
    rfl
  refine ⟨hfi, (verdicts_unchanged_iff hfi hc hr hc' rfl).2 fun g w o _ _ _ hn => ?_⟩
  rcases Nat.lt_or_ge o 6 with ho | ho
  · rw [hsome o ho] at hn
    cases hn
  · rw [hnone o ho] at hn
    exact absurd hn (by decide +kernel)

end Source

end AssignOnce
