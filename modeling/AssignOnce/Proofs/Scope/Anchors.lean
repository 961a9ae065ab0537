import AssignOnce.Proofs.Sample
import AssignOnce.Proofs.Tree.Kept
import AssignOnce.Proofs.Tree.Search
import Mathlib.Data.List.Chain

/-!
# Comments of inner functions stay inside

The comments of a function literal stand above its anchor. If the literal lies in the body of another
function, its anchor does as well (`Blocks.body_around_anchor`), and in front of a statement or of a
part of a declaration nothing but what follows the brace of that body is looked at
(`Commented.start_lt_of_anchorComments?`). Comments of the functions around it end in front of their
anchors (`Commented.stop_le_of_commentsOf?`), which start before that brace. So no comment speaks
both for a literal and for a function around it.
-/

namespace AssignOnce

namespace Kind

/-- Whether a kind is a block. -/
def isBlock : Kind → Bool
  | .blockStmt _ => true
  | _ => false

/-- Where the list of statements of a block or clause opens: its brace or colon. -/
def opening? : Kind → Option Int
  | .blockStmt brace => some brace
  | .caseClause colon => some colon
  | .commClause colon => some colon
  | _ => none

/-- Whether a kind is a part of a declaration that holds names and values. -/
def isValueSpec : Kind → Bool
  | .valueSpec _ => true
  | _ => false

/-- The place of the comment group above a function, a declaration or a part of one. -/
def doc? : Kind → Option Nat
  | .funcDecl _ doc => doc
  | .genDecl _ doc => doc
  | .valueSpec doc => doc
  | _ => none

theorem isBlock_iff {k : Kind} : k.isBlock ↔ ∃ brace, k = .blockStmt brace := by
  cases k <;> simp [isBlock]

theorem isComment_of_isBlock {k : Kind} (h : k.isBlock) : k.isComment = false := by
  cases k <;> first | rfl | cases h

end Kind

namespace Tree

variable {t : Tree}

/-- Blocks, clauses and declarations are as the grammar says: the body of a function is a block, a
block holds a list of statements behind its brace, a clause one behind its colon, and the parts of a
declaration are no statements. Files are not held by anything. -/
structure Blocks (t : Tree) : Prop where
  bodies : ∀ g < t.size, t.isFunction g → ∀ b ∈ t.body? g, (t.kind b).isBlock
  lists : ∀ i < t.size, (t.parentKind? i).any Kind.isBlock → t.field i = .list
  braces : ∀ i < t.size, (t.kind i).isBlock → (t.kind i).opening? = some (t.start i)
  openings : ∀ i < t.size, ∀ p ∈ (t.kind i).opening?, t.start i ≤ p
  elements : ∀ i < t.size, (t.parentKind? i).any (·.opening?.isSome) →
    (t.kind i).isComment = false
  specs : ∀ i < t.size, t.field i = .specs → (t.kind i).isStatement = false
  files : ∀ i < t.size, (t.kind i).isFile → t.parent? i = none

instance (t : Tree) : Decidable t.Blocks :=
  decidable_of_iff (_ ∧ _ ∧ _ ∧ _ ∧ _ ∧ _ ∧ _)
    ⟨fun ⟨bodies, lists, braces, openings, elements, specs, files⟩ =>
      ⟨bodies, lists, braces, openings, elements, specs, files⟩,
      fun h => ⟨h.bodies, h.lists, h.braces, h.openings, h.elements, h.specs, h.files⟩⟩

/-- Whether a function lies in the body of the next function around it. -/
def InBody (t : Tree) (f g : Nat) : Prop :=
  t.outerFunction? f = some g ∧ ∃ b ∈ t.body? g, b ∈ t.enclosing f

instance (t : Tree) (f g : Nat) : Decidable (t.InBody f g) :=
  inferInstanceAs (Decidable (_ ∧ _))

/-- Whether the anchor of a function is a statement or a part of a declaration. -/
def IsAnchoredInside (t : Tree) (f : Nat) : Prop :=
  (t.kind (t.anchor f)).isStatement ∨ (t.kind (t.anchor f)).isValueSpec

instance (t : Tree) (f : Nat) : Decidable (t.IsAnchoredInside f) :=
  inferInstanceAs (Decidable (_ ∨ _))

/-! ## Anchors -/

theorem outerFunction?_eq_some_iff {f g : Nat} : t.outerFunction? f = some g ↔
    (t.kind f).isFunctionLiteral ∧ ∃ p, t.parent? f = some p ∧ t.function? p = some g := by
  unfold outerFunction?
  split
  · rename_i hf
    simp [hf, Option.bind_eq_some_iff]
  · rename_i hf
    simp [hf]

/-- The functions around a function are the next one and those around that one. -/
theorem mem_enclosing_of_outerFunction? {f g k : Nat} (hg : t.outerFunction? f = some g)
    (hk : k ∈ t.enclosing f) (hfunction : t.isFunction k) (hne : k ≠ f) : k ∈ t.enclosing g := by
  obtain ⟨-, p, hp, hfound⟩ := outerFunction?_eq_some_iff.1 hg
  rcases mem_enclosing_iff.1 hk with e | ⟨q, hq, hkq⟩
  · exact absurd e hne
  · obtain rfl : q = p := by rw [hq] at hp; exact Option.some.inj hp
    exact t.ascent.mem_of_find? hfound hkq hfunction

theorem isFunction_of_outerFunction? {f g : Nat} (hg : t.outerFunction? f = some g) :
    t.isFunction g := by
  obtain ⟨-, p, -, hfound⟩ := outerFunction?_eq_some_iff.1 hg
  exact List.find?_some hfound

theorem Blocks.isBlock_of_body? (h : t.Blocks) {f g b : Nat} (hg : t.outerFunction? f = some g)
    (hb : t.body? g = some b) : (t.kind b).isBlock := by
  have hfunction := isFunction_of_outerFunction? hg
  exact h.bodies g (lt_size_of_isFunction hfunction) hfunction b hb

/-- If a literal lies in the body of the next function around it, then so does its anchor. -/
theorem Blocks.body_around_anchor (h : t.Blocks) {f g b : Nat} (hg : t.outerFunction? f = some g)
    (hb : t.body? g = some b) (hbf : b ∈ t.enclosing f) :
    t.canAnchor (t.anchor f) ∧ b ∈ t.enclosing (t.anchor f) ∧ b < t.anchor f := by
  have hliteral := (outerFunction?_eq_some_iff.1 hg).1
  obtain ⟨brace, hbrace⟩ := Kind.isBlock_iff.1 (h.isBlock_of_body? hg hb)
  have hne : b ≠ f := by
    rintro rfl
    rw [hbrace] at hliteral
    cases hliteral
  -- the element of the body on the way to the literal can be the anchor
  obtain ⟨c, hc, hcb⟩ := t.ascent.exists_below hbf hne
  have hparent : t.parentKind? c = some (.blockStmt brace) := by
    rw [parentKind?, hcb, Option.map_some, hbrace]
  have hlist := h.lists c (lt_size_of_parent? hcb) (by rw [hparent]; rfl)
  have hcan : t.canAnchor c := by simp [canAnchor, inStatementList, hparent, hlist]
  obtain ⟨a, ha⟩ := Option.isSome_iff_exists.1 (List.find?_isSome.2 ⟨c, hc, hcan⟩)
  have hca : c ∈ t.enclosing a := t.ascent.mem_of_find? ha hc hcan
  rw [anchor, if_pos hliteral, ha, Option.getD_some]
  refine ⟨List.find?_some ha, mem_enclosing_trans (parent_mem_enclosing hcb) hca, ?_⟩
  exact Nat.lt_of_lt_of_le (lt_of_parent? hcb) (le_of_mem_enclosing hca)

/-- Whether the anchor of a function lies strictly in that of another one. -/
def AnchorInside (t : Tree) (f g : Nat) : Prop :=
  t.anchor g ∈ t.enclosing (t.anchor f) ∧ t.anchor g ≠ t.anchor f

instance (t : Tree) : Trans t.AnchorInside t.AnchorInside t.AnchorInside where
  trans := by
    rintro f g k ⟨hg, hgf⟩ ⟨hk, hkg⟩
    have := le_of_mem_enclosing hg
    have := le_of_mem_enclosing hk
    exact ⟨mem_enclosing_trans hk hg, by omega⟩

theorem Blocks.anchorInside (h : t.Blocks) {f g : Nat} (hfg : t.InBody f g) :
    t.AnchorInside f g := by
  obtain ⟨hg, b, hb, hbf⟩ := hfg
  obtain ⟨-, hba, hlt⟩ := h.body_around_anchor hg hb hbf
  have hparent := parent?_of_body? hb
  have hanchor := t.anchor_mem_enclosing g
  have := le_of_mem_enclosing hanchor
  have := lt_of_parent? hparent
  exact ⟨mem_enclosing_trans (mem_enclosing_of_parent hparent hanchor) hba, by omega⟩

/-- Where a node that comments can stand above is held. -/
theorem holder_of_canAnchor {a p : Nat} (hcan : t.canAnchor a) (hp : t.parent? a = some p) :
    (t.kind p).isComment = false ∧
      ((t.kind p).isFile ∨ t.field a = .specs ∨ (t.kind p).opening?.isSome) := by
  have hkind : t.parentKind? a = some (t.kind p) := by
    rw [parentKind?, hp]
    rfl
  unfold canAnchor inStatementList at hcan
  rw [hkind] at hcan
  split at hcan
  · rename_i hk
    cases hk
  · rename_i hk _
    rw [Option.some.inj hk]
    exact ⟨rfl, .inl rfl⟩
  · rename_i hk hfield
    rw [Option.some.inj hk]
    exact ⟨rfl, .inr (.inl hfield)⟩
  · -- a block, a case or a clause of `select`
    split at hcan
    case h_4 => cases hcan
    all_goals
      rename_i hk _
      rw [Option.some.inj hk]
      exact ⟨rfl, .inr (.inr rfl)⟩

/-- In a list of statements, what stands in front of an element does not end before the list
opens. -/
theorem Blocks.start_le_precedingStop (h : t.Blocks) (ho : t.Ordered) {a p : Nat}
    (hp : t.parent? a = some p) (hopening : (t.kind p).opening?.isSome) :
    t.start p ≤ t.precedingStop a := by
  have hpsize := parent_lt_size hp
  unfold precedingStop
  split
  · rename_i j hj
    rw [previousSibling?, hp] at hj
    obtain ⟨hjsize, hjp⟩ := mem_children.1 (List.mem_filter.1 (List.mem_of_getLast? hj)).1
    have helement : (t.parentKind? j).any (·.opening?.isSome) := by
      rw [parentKind?, hjp, Option.map_some, Option.any_some, hopening]
    have hinside := ho.inside j hjsize (h.elements j hjsize helement) p (parent_mem_enclosing hjp)
    exact Int.le_trans hinside.1 (ho.spans j hjsize)
  · have hopens := h.openings p hpsize
    rw [parentKind?, hp, Option.map_some]
    cases hk : t.kind p <;> simp_all [Kind.opening?]

end Tree

namespace SourceFile

variable {file : SourceFile}

/-- A file whose comments are in place: groups end behind their start, those that belong to a
declaration or to a part of one stand in front of it, and those of a part inside the declaration. -/
structure Commented (file : SourceFile) : Prop extends file.tree.Ordered, file.tree.Blocks where
  groups : ∀ g ∈ file.groups, g.start ≤ g.stop
  docs : ∀ i < file.tree.size, ∀ g ∈ file.group? (file.tree.kind i).doc?, g.stop ≤ file.tree.start i
  parts : ∀ i < file.tree.size, (file.tree.kind i).isValueSpec →
    ∀ g ∈ file.group? (file.tree.kind i).doc?, ∀ p ∈ file.tree.parent? i, file.tree.start p < g.start

instance (file : SourceFile) : Decidable file.Commented :=
  decidable_of_iff (file.tree.Ordered ∧ file.tree.Blocks ∧ _ ∧ _ ∧ _)
    ⟨fun ⟨ordered, blocks, groups, docs, parts⟩ => ⟨ordered, blocks, groups, docs, parts⟩,
      fun h => ⟨h.toOrdered, h.toBlocks, h.groups, h.docs, h.parts⟩⟩

/-! ## The comments of an anchor -/

theorem leadingComment?_eq_some {limit p : Int} {g : CommentGroup}
    (h : file.leadingComment? limit p = some g) :
    g ∈ file.groups ∧ limit < g.start ∧ g.stop ≤ p := by
  unfold leadingComment? at h
  split at h
  · rename_i g' hg'
    split at h
    · cases h
    · rename_i hcond
      obtain rfl : g' = g := Option.some.inj h
      exact ⟨mem_groups_of_lastGroupBefore? hg', by omega, by omega⟩
  · cases h

/-- The comments of an anchor belong to the declaration that it is, or stand in front of it. -/
theorem anchorComments?_eq_some {a : Nat} {g : CommentGroup}
    (h : file.anchorComments? a = some g) :
    file.group? (file.tree.kind a).doc? = some g ∧ (file.tree.kind a).isStatement = false ∨
      file.leadingComment? (file.tree.precedingStop a) (file.tree.start a) = some g ∧
        (file.tree.kind a).isValueSpec = false := by
  unfold anchorComments? at h
  cases hk : file.tree.kind a <;> rw [hk] at h <;>
    simp_all [Kind.doc?, Kind.isStatement, Kind.isValueSpec]

theorem mem_groups_of_anchorComments? {a : Nat} {g : CommentGroup}
    (h : file.anchorComments? a = some g) : g ∈ file.groups := by
  rcases anchorComments?_eq_some h with ⟨hdoc, -⟩ | ⟨hleading, -⟩
  · obtain ⟨i, -, hi⟩ := Option.bind_eq_some_iff.1 hdoc
    exact List.mem_of_getElem? hi
  · exact (leadingComment?_eq_some hleading).1

namespace Commented

variable (h : file.Commented)
include h

/-- The comments of a function end in front of its anchor. -/
theorem stop_le_of_commentsOf? {f : Nat} (hf : f < file.tree.size) {g : CommentGroup}
    (hg : file.commentsOf? f = some g) : g.stop ≤ file.tree.start (file.tree.anchor f) := by
  rcases anchorComments?_eq_some hg with ⟨hdoc, -⟩ | ⟨hleading, -⟩
  · exact h.docs _ (Tree.anchor_lt_size hf) g hdoc
  · exact (leadingComment?_eq_some hleading).2.2

/-- The comments of an anchor that is a statement or a part of a declaration start behind the start
of each block around it. -/
theorem start_lt_of_anchorComments? {a b : Nat} {g : CommentGroup}
    (hcan : file.tree.canAnchor a) (hb : b ∈ file.tree.enclosing a) (hlt : b < a)
    (hblock : (file.tree.kind b).isBlock)
    (ha : (file.tree.kind a).isStatement ∨ (file.tree.kind a).isValueSpec)
    (hg : file.anchorComments? a = some g) : file.tree.start b < g.start := by
  rcases Tree.mem_enclosing_iff.1 hb with e | ⟨p, hp, hbp⟩
  · omega
  have hpsize := Tree.parent_lt_size hp
  obtain ⟨hcomment, hheld⟩ := Tree.holder_of_canAnchor hcan hp
  have hstart : file.tree.start b ≤ file.tree.start p := (h.inside p hpsize hcomment b hbp).1
  rcases anchorComments?_eq_some hg with ⟨hdoc, hnot⟩ | ⟨hleading, hnot⟩
  · have hspec := ha.resolve_left (by simp [hnot])
    exact Int.lt_of_le_of_lt hstart (h.parts a (Tree.lt_size_of_parent? hp) hspec g hdoc p hp)
  · have hstatement := ha.resolve_right (by simp [hnot])
    have hopening : (file.tree.kind p).opening?.isSome := by
      rcases hheld with hfile | hspecs | hopening
      · -- a file holds the block as well, and nothing lies around it
        rw [Tree.enclosing_of_root (h.files p hpsize hfile), List.mem_singleton] at hbp
        subst hbp
        obtain ⟨brace, hbrace⟩ := Kind.isBlock_iff.1 hblock
        rw [hbrace] at hfile
        cases hfile
      · have := h.specs a (Tree.lt_size_of_parent? hp) hspecs
        rw [this] at hstatement
        cases hstatement
      · exact hopening
    have hpreceding := h.start_le_precedingStop h.toOrdered hp hopening
    have hlimit := (leadingComment?_eq_some hleading).2.1
    omega

/-- The comments of a function around another one start in front of each block that lies in the
former. -/
theorem start_le_of_commentsOf? {b k : Nat} (hk : k ∈ file.tree.enclosing b)
    (hblock : (file.tree.kind b).isBlock) (hb : b < file.tree.size) {g : CommentGroup}
    (hg : file.commentsOf? k = some g) : g.start ≤ file.tree.start b := by
  have hksize : k < file.tree.size := Nat.lt_of_le_of_lt (Tree.le_of_mem_enclosing hk) hb
  have hgroup := h.groups g (mem_groups_of_anchorComments? hg)
  have hstop := h.stop_le_of_commentsOf? hksize hg
  have hanchor := Tree.mem_enclosing_trans (file.tree.anchor_mem_enclosing k) hk
  have hstart := (h.inside b hb (Kind.isComment_of_isBlock hblock) _ hanchor).1
  omega

end Commented

/-- The comments of a literal, if it has any, start behind the brace of the body that it lies in, and
are not those of a function around it. -/
theorem Commented.commentsOf?_of_inBody (h : file.Commented) {f g b : Nat}
    (hg : file.tree.outerFunction? f = some g) (hb : file.tree.body? g = some b)
    (hbf : b ∈ file.tree.enclosing f) (ha : file.tree.IsAnchoredInside f) {c : CommentGroup}
    (hc : file.commentsOf? f = some c) :
    file.tree.start b < c.start ∧ ∀ k ∈ file.tree.enclosing f, file.tree.isFunction k → k ≠ f →
      file.commentsOf? k ≠ some c := by
  have hblock := h.isBlock_of_body? hg hb
  have hparent := Tree.parent?_of_body? hb
  obtain ⟨hcan, hba, hlt⟩ := h.body_around_anchor hg hb hbf
  have hstart := h.start_lt_of_anchorComments? hcan hba hlt hblock ha hc
  refine ⟨hstart, fun k hk hkf hne hkc => ?_⟩
  have hkg := Tree.mem_enclosing_of_outerFunction? hg hk hkf hne
  have hkb := Tree.mem_enclosing_of_parent hparent hkg
  have := h.start_le_of_commentsOf? hkb hblock (Tree.lt_size_of_parent? hparent) hkc
  omega

/-- Along a chain of functions, from the inside out and each in the body of the next one, with
statements or parts of declarations as the anchors of the inner ones: anchors lie strictly in each
other, each one in the body of the next function, and the comments of an inner function, if it has
any, start behind the brace of that body and are not those of any function around it. -/
theorem inner_comments_stay_inside (h : file.Commented) {fs : List Nat}
    (hfs : fs.IsChain fun f g => file.tree.InBody f g ∧ file.tree.IsAnchoredInside f) :
    (fs.Pairwise fun f g => file.tree.anchor g ∈ file.tree.enclosing (file.tree.anchor f) ∧
      file.tree.anchor g ≠ file.tree.anchor f) ∧
    fs.IsChain fun f g => ∃ b brace, file.tree.body? g = some b ∧
      file.tree.kind b = .blockStmt brace ∧ b ∈ file.tree.enclosing (file.tree.anchor f) ∧
      b ≠ file.tree.anchor f ∧
      ∀ c, file.commentsOf? f = some c → brace < c.start ∧
        ∀ k ∈ file.tree.enclosing f, file.tree.isFunction k → k ≠ f →
          file.commentsOf? k ≠ some c := by
  constructor
  · have hinside : fs.IsChain file.tree.AnchorInside := hfs.imp fun f g hfg => h.anchorInside hfg.1
    exact hinside.pairwise
  · refine hfs.imp fun f g hfg => ?_
    obtain ⟨⟨hg, b, hb, hbf⟩, ha⟩ := hfg
    obtain ⟨-, hba, hlt⟩ := h.body_around_anchor hg hb hbf
    have hblock := h.isBlock_of_body? hg hb
    obtain ⟨brace, hbrace⟩ := Kind.isBlock_iff.1 hblock
    have hopening := h.braces b (Tree.lt_size_of_parent? (Tree.parent?_of_body? hb)) hblock
    obtain rfl : brace = file.tree.start b := by simpa [hbrace, Kind.opening?] using hopening
    exact ⟨b, _, hb, hbrace, hba, by omega, fun c hc => h.commentsOf?_of_inBody hg hb hbf ha hc⟩

/-- The comment above the innermost function of `commentedNesting`. -/
def emptyComment : CommentGroup := ⟨[⟨⟨74, 88⟩, "// h is empty."⟩]⟩

/-- A function with a literal in a declaration, and another one in a statement of that literal:

    // f nests.
    func f() {
      var (
        // g calls.
        g = func() {
          // h is empty.
          h := func() {}
          h()
        }
      )
      g()
    }
-/
def commentedNesting : SourceFile :=
  let src : Source := .ofFile
    (Utf8.encode "package p\n\n// f nests.\nfunc f() \x7b\n\tvar (\n\t\t// g calls.\n" ++
      Utf8.encode "\t\tg = func() \x7b\n\t\t\t// h is empty.\n\t\t\th := func() \x7b\x7d\n" ++
      Utf8.encode "\t\t\th()\n\t\t\x7d\n\t)\n\tg()\n\x7d\n")
    [⟨[⟨⟨12, 23⟩, "// f nests."⟩]⟩, ⟨[⟨⟨44, 55⟩, "// g calls."⟩]⟩, emptyComment]
    #[
      ⟨"f", 2, .other⟩,
      ⟨"g", 2, .variable ⟨58, false, true, .scope 2⟩⟩,
      ⟨"h", 2, .variable ⟨92, false, true, .scope 3⟩⟩]
    #[
      ⟨.predeclared, ⟨0, 0⟩, ["f"]⟩,
      ⟨.scope 0, ⟨1, 128⟩, []⟩,
      ⟨.scope 1, ⟨24, 127⟩, ["g"]⟩,
      ⟨.scope 2, ⟨62, 117⟩, ["h"]⟩,
      ⟨.scope 3, ⟨97, 106⟩, []⟩]
    #[
      ⟨.file none, none, .other, ⟨1, 127⟩, none⟩,
      ⟨.ident "p" .noObject none, some 0, .name, ⟨9, 10⟩, none⟩,
      ⟨.funcDecl true (some 0), some 0, .decls, ⟨24, 127⟩, none⟩,
      ⟨.commentGroup, some 2, .other, ⟨12, 23⟩, none⟩,
      ⟨.comment, some 3, .list, ⟨12, 23⟩, none⟩,
      ⟨.ident "f" (.object 0) none, some 2, .name, ⟨29, 30⟩, none⟩,
      ⟨.funcType, some 2, .type, ⟨24, 32⟩, none⟩,
      ⟨.fieldList, some 6, .params, ⟨30, 32⟩, none⟩,
      ⟨.blockStmt 33, some 2, .body, ⟨33, 127⟩, none⟩,
      ⟨.declStmt, some 8, .list, ⟨36, 120⟩, none⟩,
      ⟨.genDecl true none, some 9, .other, ⟨36, 120⟩, none⟩,
      ⟨.valueSpec (some 1), some 10, .specs, ⟨58, 117⟩, none⟩,
      ⟨.commentGroup, some 11, .other, ⟨44, 55⟩, none⟩,
      ⟨.comment, some 12, .list, ⟨44, 55⟩, none⟩,
      ⟨.ident "g" (.object 1) none, some 11, .names, ⟨58, 59⟩, none⟩,
      ⟨.funcLit, some 11, .other, ⟨62, 117⟩, none⟩,
      ⟨.funcType, some 15, .type, ⟨62, 68⟩, none⟩,
      ⟨.fieldList, some 16, .params, ⟨66, 68⟩, none⟩,
      ⟨.blockStmt 69, some 15, .body, ⟨69, 117⟩, none⟩,
      ⟨.assignStmt .define 94, some 18, .list, ⟨92, 106⟩, none⟩,
      ⟨.ident "h" (.object 2) none, some 19, .lhs, ⟨92, 93⟩, none⟩,
      ⟨.funcLit, some 19, .rhs, ⟨97, 106⟩, some 2⟩,
      ⟨.funcType, some 21, .type, ⟨97, 103⟩, none⟩,
      ⟨.fieldList, some 22, .params, ⟨101, 103⟩, none⟩,
      ⟨.blockStmt 104, some 21, .body, ⟨104, 106⟩, none⟩,
      ⟨.exprStmt, some 18, .list, ⟨110, 113⟩, none⟩,
      ⟨.callExpr, some 25, .x, ⟨110, 113⟩, none⟩,
      ⟨.ident "h" .nothing (some 2), some 26, .other, ⟨110, 111⟩, none⟩,
      ⟨.exprStmt, some 8, .list, ⟨122, 125⟩, none⟩,
      ⟨.callExpr, some 28, .x, ⟨122, 125⟩, none⟩,
      ⟨.ident "g" .nothing (some 1), some 29, .other, ⟨122, 123⟩, none⟩]
  src.file

/-- The comment above the innermost literal starts behind the brace of the body that the literal lies
in, and is neither that of the literal around it nor that of the declared function. -/
theorem inner_comments_stay_inside_commentedNesting :
    commentedNesting.Commented ∧ commentedNesting.commentsOf? 21 = some emptyComment ∧
      commentedNesting.tree.kind 18 = .blockStmt 69 ∧ 69 < emptyComment.start ∧
      commentedNesting.commentsOf? 15 ≠ some emptyComment ∧
      commentedNesting.commentsOf? 2 ≠ some emptyComment := by
  have h : commentedNesting.Commented := by decide +kernel
  have hchain : [21, 15, 2].IsChain fun f g =>
      commentedNesting.tree.InBody f g ∧ commentedNesting.tree.IsAnchoredInside f := by
    decide +kernel
  have hcomments : commentedNesting.commentsOf? 21 = some emptyComment := by decide +kernel
  have hbody : commentedNesting.tree.body? 15 = some 18 := by decide +kernel
  obtain ⟨b, brace, hb, hbrace, -, -, hc⟩ :=
    List.rel_of_isChain_cons_cons (inner_comments_stay_inside h hchain).2
  obtain rfl : b = 18 := by rw [hbody] at hb; exact (Option.some.inj hb).symm
  obtain rfl : brace = 69 := by
    have : commentedNesting.tree.kind 18 = .blockStmt 69 := rfl
    rw [this] at hbrace
    exact (Kind.blockStmt.inj hbrace).symm
  obtain ⟨hstart, hne⟩ := hc emptyComment hcomments
  exact ⟨h, hcomments, hbrace, hstart, hne 15 (by decide +kernel) rfl (by decide),
    hne 2 (by decide +kernel) rfl (by decide)⟩

end SourceFile

end AssignOnce
