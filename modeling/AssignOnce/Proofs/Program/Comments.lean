import Mathlib
import AssignOnce.Program.Function

/-!
# Looking up comments

The comments around a position are found by halving the list of groups and by comparing lines. In a
file whose groups come in source order (`SourceFile.GroupsInOrder`) the groups in front of a
position come first, and lines grow from group to group. So nothing is missed by looking no further
than at the last group in front of a position, or than to the first group on another line
(`SourceFile.comment_lookups`).
-/

namespace AssignOnce

namespace SourceFile

/-- Whether the comment groups of a file have positions and come in source order. -/
structure GroupsInOrder (file : SourceFile) : Prop where
  placed : ∀ g ∈ file.groups, g.start ≠ 0
  ordered : file.groups.Pairwise fun a b => a.start < b.start

instance (file : SourceFile) : Decidable file.GroupsInOrder :=
  decidable_of_iff (_ ∧ _) ⟨fun ⟨placed, ordered⟩ => ⟨placed, ordered⟩,
    fun h => ⟨h.placed, h.ordered⟩⟩

/-- Whether a comment group is the last one that starts before a position, and leads to it: it
starts behind a limit and ends in front of the position, on the line above it. -/
structure Leads (file : SourceFile) (limit p : Int) (g : CommentGroup) : Prop where
  mem : g ∈ file.groups
  before : g.start < p
  last : ∀ g' ∈ file.groups, g'.start < p → g'.start ≤ g.start
  behind : limit < g.start
  ends : g.stop ≤ p
  above : file.line g.stop + 1 = file.line p

variable {file : SourceFile}

theorem line_ne_zero {p : Int} (hp : p ≠ 0) : file.line p ≠ 0 := by
  rw [line, if_neg hp, Lines.number]
  omega

/-- Lines grow with the position; only no position has no line. -/
theorem line_mono (file : SourceFile) {p q : Int} (hp : p ≠ 0) (hq : q ≠ 0) (h : p ≤ q) :
    file.line p ≤ file.line q := by
  rw [line, line, if_neg hp, if_neg hq]
  apply Lines.number_mono
  unfold offset
  omega

theorem line_eq_of_between (file : SourceFile) {p q r : Int} (hp : p ≠ 0) (hq : q ≠ 0) (hr : r ≠ 0)
    (hpq : p ≤ q) (hqr : q ≤ r) (hline : file.line r = file.line p) :
    file.line q = file.line p := by
  have hlow := file.line_mono hp hq hpq
  have hhigh := file.line_mono hq hr hqr
  omega

/-- Ordered groups fall into those in front of a position and the others. -/
theorem exists_split {groups : List CommentGroup}
    (h : groups.Pairwise fun a b => a.start < b.start) (p : Int) :
    ∃ front back, groups = front ++ back ∧ (∀ g ∈ front, g.start < p) ∧
      ∀ g ∈ back, p ≤ g.start := by
  induction groups with
  | nil => exact ⟨[], [], rfl, by simp, by simp⟩
  | cons g rest ih =>
    obtain ⟨hg, hrest⟩ := List.pairwise_cons.1 h
    by_cases hgp : g.start < p
    · obtain ⟨front, back, rfl, hfront, hback⟩ := ih hrest
      exact ⟨g :: front, back, rfl, List.forall_mem_cons.2 ⟨hgp, hfront⟩, hback⟩
    · refine ⟨[], g :: rest, rfl, by simp, List.forall_mem_cons.2 ⟨by omega, fun g' hg' => ?_⟩⟩
      have := hg g' hg'
      omega

namespace GroupsInOrder

variable (h : file.GroupsInOrder)
include h

/-- What is found in front of a position is the group that starts last there. -/
theorem lastGroupBefore?_eq_some_iff {p : Int} {g : CommentGroup} :
    file.lastGroupBefore? p = some g ↔
      g ∈ file.groups ∧ g.start < p ∧ ∀ g' ∈ file.groups, g'.start < p → g'.start ≤ g.start := by
  obtain ⟨front, back, hgroups, hfront, hback⟩ := exists_split h.ordered p
  have hmem : ∀ {g'}, g' ∈ file.groups → g'.start < p → g' ∈ front := by
    intro g' hg' hlt
    rcases List.mem_append.1 (hgroups ▸ hg') with hg' | hg'
    · exact hg'
    · have := hback g' hg'
      omega
  have hsub : ∀ {g'}, g' ∈ front → g' ∈ file.groups := fun hg' =>
    hgroups ▸ List.mem_append_left _ hg'
  have hordered : front.Pairwise fun a b => a.start < b.start :=
    (List.pairwise_append.1 (hgroups ▸ h.ordered)).1
  -- the last group of the front is the one that starts last
  have hle : ∀ {l}, front.getLast? = some l → ∀ g' ∈ front, g' = l ∨ g'.start < l.start := by
    intro l hl g' hg'
    obtain ⟨init, rfl⟩ := List.getLast?_eq_some_iff.1 hl
    rcases List.mem_append.1 hg' with hg' | hg'
    · exact .inr ((List.pairwise_append.1 hordered).2.2 g' hg' l (List.mem_singleton_self l))
    · exact .inl (List.mem_singleton.1 hg')
  rw [lastGroupBefore?_eq hgroups hfront hback]
  constructor
  · intro hlast
    have hg := List.mem_of_getLast? hlast
    refine ⟨hsub hg, hfront g hg, fun g' hg' hlt => ?_⟩
    rcases hle hlast g' (hmem hg' hlt) with rfl | hlt
    · exact Int.le_refl _
    · exact Int.le_of_lt hlt
  · rintro ⟨hg, hlt, hmax⟩
    cases hlast : front.getLast? with
    | none => exact absurd (List.getLast?_eq_none_iff.1 hlast) (List.ne_nil_of_mem (hmem hg hlt))
    | some l =>
      have hl := List.mem_of_getLast? hlast
      have := hmax l (hsub hl) (hfront l hl)
      rcases hle hlast g (hmem hg hlt) with rfl | hlt
      · rfl
      · omega

theorem leadingComment?_eq_some_iff {limit p : Int} {g : CommentGroup} :
    file.leadingComment? limit p = some g ↔ file.Leads limit p g := by
  have hlast : file.leadingComment? limit p = some g ↔ file.lastGroupBefore? p = some g ∧
      limit < g.start ∧ g.stop ≤ p ∧ file.line g.stop + 1 = file.line p := by
    unfold leadingComment?
    cases file.lastGroupBefore? p with
    | none => simp
    | some g' =>
      simp only [Option.some.injEq]
      constructor
      · intro hg
        split at hg
        · cases hg
        · cases hg
          exact ⟨rfl, by omega⟩
      · rintro ⟨rfl, hlimit, hends, habove⟩
        rw [if_neg (by omega)]
  rw [hlast, h.lastGroupBefore?_eq_some_iff]
  constructor
  · rintro ⟨⟨hmem, hbefore, hmax⟩, hlimit, hends, habove⟩
    exact ⟨hmem, hbefore, hmax, hlimit, hends, habove⟩
  · intro hg
    exact ⟨⟨hg.mem, hg.before, hg.last⟩, hg.behind, hg.ends, hg.above⟩

/-- Groups from a position on are looked at as long as they start on its line, which are all that
start on it. -/
theorem suppressedAt_iff {p : Int} : file.suppressedAt p ↔
    ∃ g ∈ file.groups, p ≤ g.start ∧ file.line g.start = file.line p ∧
      ∃ c ∈ g.comments, c.isNoLint := by
  obtain ⟨front, back, hgroups, hfront, hback⟩ := exists_split h.ordered p
  have hdrop : file.groups.drop (file.groupsBefore p) = back := by
    rw [groupsBefore_eq hgroups hfront hback, hgroups, List.drop_left]
  unfold suppressedAt
  rw [hdrop, List.any_eq_true]
  constructor
  · rintro ⟨g, hg, hnolint⟩
    have hgback := (List.takeWhile_prefix _).subset hg
    exact ⟨g, hgroups ▸ List.mem_append_right _ hgback, hback g hgback,
      by simpa using List.mem_takeWhile_imp hg, List.any_eq_true.1 hnolint⟩
  · rintro ⟨g, hg, hp, hline, hnolint⟩
    have hgback : g ∈ back := by
      rcases List.mem_append.1 (hgroups ▸ hg) with hfr | hgback
      · have := hfront g hfr
        omega
      · exact hgback
    obtain ⟨between, rest, rfl⟩ := List.append_of_mem hgback
    have hordered := (List.pairwise_append.1 (List.pairwise_append.1 (hgroups ▸ h.ordered)).2.1).2.2
    have hplaced : p ≠ 0 := by
      rintro rfl
      exact line_ne_zero (h.placed g hg) hline
    -- the group starts on the line of the position, and so do all groups between them
    have hlines : ∀ g' ∈ between ++ [g], file.line g'.start == file.line p := by
      intro g' hg'
      have hmem : g' ∈ between ++ g :: rest := by
        rw [List.append_cons]
        exact List.mem_append_left _ hg'
      have hle : g'.start ≤ g.start := by
        rcases List.mem_append.1 hg' with hg' | hg'
        · exact Int.le_of_lt (hordered g' hg' g List.mem_cons_self)
        · exact Int.le_of_eq (congrArg _ (List.mem_singleton.1 hg'))
      have hplaced' := h.placed g' (hgroups ▸ List.mem_append_right _ hmem)
      exact beq_iff_eq.2 (file.line_eq_of_between hplaced hplaced' (h.placed g hg) (hback g' hmem)
        hle hline)
    refine ⟨g, ?_, List.any_eq_true.2 hnolint⟩
    rw [List.append_cons, List.takeWhile_append_of_pos hlines]
    simp

end GroupsInOrder

/-- A position is suppressed exactly if some group that starts at it or behind it, and on its line,
switches off the tool, and the group that leads to it is found, or none if there is none. -/
theorem comment_lookups (h : file.GroupsInOrder) (p : Int) :
    (file.suppressedAt p ↔ ∃ g ∈ file.groups, p ≤ g.start ∧ file.line g.start = file.line p ∧
      ∃ c ∈ g.comments, c.isNoLint) ∧
    ∀ limit, (∀ g, file.leadingComment? limit p = some g ↔ file.Leads limit p g) ∧
      (file.leadingComment? limit p = none ↔ ∀ g, ¬ file.Leads limit p g) := by
  refine ⟨h.suppressedAt_iff, fun limit => ⟨fun g => h.leadingComment?_eq_some_iff, ?_⟩⟩
  simp only [Option.eq_none_iff_forall_ne_some, ne_eq, h.leadingComment?_eq_some_iff]

/-- A file with a comment above a function, one in it and one behind it:

    package p

    // f doubles.
    func f() { /* a */ x = 1 } //nolint:all
-/
def commentedFunction : SourceFile :=
  { missing with
    base := 1
    text := Utf8.encode
      "package p\n\n// f doubles.\nfunc f() \x7b /* a */ x = 1 \x7d //nolint:all\n"
    groups := [
      ⟨[⟨⟨12, 25⟩, "// f doubles."⟩]⟩,
      ⟨[⟨⟨37, 44⟩, "/* a */"⟩]⟩,
      ⟨[⟨⟨53, 65⟩, "//nolint:all"⟩]⟩] }

/-- The function is suppressed by the comment behind it and led to by the one above it. The
assignment has the one in front of it on its line, so none leads to it. -/
theorem comment_lookups_commentedFunction : commentedFunction.GroupsInOrder ∧
    commentedFunction.suppressedAt 26 ∧
    commentedFunction.leadingComment? 10 26 = some ⟨[⟨⟨12, 25⟩, "// f doubles."⟩]⟩ ∧
    commentedFunction.leadingComment? 10 45 = none := by
  have h : commentedFunction.GroupsInOrder := by decide
  have hlines : commentedFunction.line 53 = commentedFunction.line 26 ∧
      commentedFunction.line 25 + 1 = commentedFunction.line 26 ∧
      commentedFunction.line 44 + 1 ≠ commentedFunction.line 45 := by decide +kernel
  have hnolint : (Comment.mk ⟨53, 65⟩ "//nolint:all").isNoLint := by cbv
  refine ⟨h, (comment_lookups h 26).1.2 ⟨⟨[⟨⟨53, 65⟩, "//nolint:all"⟩]⟩, ?_, ?_, hlines.1, ?_⟩,
    (((comment_lookups h 26).2 10).1 _).2 ?_, ((comment_lookups h 45).2 10).2.2 fun g hg => ?_⟩
  · decide
  · decide
  · exact ⟨_, List.mem_singleton_self _, hnolint⟩
  · exact
      { mem := by decide
        before := by decide
        last := by decide
        behind := by decide
        ends := by decide
        above := hlines.2.1 }
  · have hlast := hg.last _ (List.mem_cons_of_mem _ List.mem_cons_self) (by decide)
    obtain rfl | rfl | rfl : _ ∨ _ ∨ _ := by simpa [commentedFunction] using hg.mem
    · exact absurd hlast (by decide)
    · exact hlines.2.2 hg.above
    · exact absurd hg.before (by decide)

end SourceFile

end AssignOnce
