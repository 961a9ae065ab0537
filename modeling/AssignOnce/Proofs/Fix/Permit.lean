import AssignOnce.Fix.Permit
import AssignOnce.Proofs.Directive.RoundTrip
import AssignOnce.Proofs.Sample
import AssignOnce.Proofs.Scope.Lookup
import AssignOnce.Proofs.Text.Utf8
import AssignOnce.Proofs.Tree.Kept
import Mathlib.Data.List.TakeWhile

/-!
# A permitted write is not reported

The fix that permits a write inserts a directive on a line of its own above the anchor of the
innermost function. When the file is read again (`SourceFile.Inserts`), the directive is the last
comment of some group. That group speaks for the function exactly if it is attached to the anchor
(`Source.commentsOf?_eq_some_iff`): as the doc comment of a declaration, or by starting behind
what stands in front of any other node. Then the write is no longer disallowed
(`Source.permit_silences`).
-/

namespace AssignOnce

/-! ## Lines -/

namespace Lines

/-- The line on which the front of a text ends, if more of the text follows. -/
theorem number_append (front : Bytes) {rest : Bytes} (hr : rest ≠ []) :
    number (front ++ rest) front.length = 1 + front.count newline := by
  rw [number, before, List.dropLast_append_of_ne_nil hr, List.take_left]

/-- Blanks are read as blanks. -/
theorem decode_of_blank {bs : Bytes} (h : ∀ b ∈ bs, b = 32 ∨ b = 9) :
    Utf8.decode bs = bs.map fun b => Char.ofNat b.toNat := by
  have hencoded : (bs.map fun b => Char.ofNat b.toNat).flatMap String.utf8EncodeChar = bs := by
    induction bs with
    | nil => rfl
    | cons b bs ih =>
      have hb : String.utf8EncodeChar (Char.ofNat b.toNat) = [b] := by
        rcases h b List.mem_cons_self with rfl | rfl <;> decide
      rw [List.map_cons, List.flatMap_cons, hb, ih fun b hb => h b (List.mem_cons_of_mem _ hb)]
      rfl
  rw [← congrArg Utf8.decode hencoded, Utf8.decode_encoded]

theorem mem_blanks {piece : Bytes} {b : UInt8} (h : b ∈ blanks piece) : b = 32 ∨ b = 9 := by
  simpa using List.mem_takeWhile_imp h

end Lines

namespace SourceFile

/-- White space in front of a position holds blanks and tabs only. -/
theorem mem_indent {file : SourceFile} {p : Int} {c : Char} (hc : c ∈ (file.indent p).toList) :
    c = ' ' ∨ c = '\t' := by
  unfold indent at hc
  split at hc
  · rw [String.toList_ofList] at hc
    exact .inr (List.eq_of_mem_replicate hc)
  · simp only [Utf8.toString, String.toList_ofList] at hc
    rw [Lines.decode_of_blank fun b => Lines.mem_blanks] at hc
    obtain ⟨b, hb, rfl⟩ := List.mem_map.1 hc
    rcases Lines.mem_blanks hb with rfl | rfl
    · exact .inl (by decide)
    · exact .inr (by decide)

theorem newline_notMem_indent (file : SourceFile) (p : Int) :
    Lines.newline ∉ Utf8.encode (file.indent p) := by
  rw [Utf8.newline_mem_encode]
  intro h
  rcases mem_indent h with h | h <;> exact absurd h (by decide)

/-- The line on which the front of a file ends, if more of the file follows. -/
theorem line_append {file : SourceFile} (hbase : 0 < file.base) {front rest : Bytes}
    (htext : file.text = front ++ rest) (hr : rest ≠ []) :
    file.line (file.base + front.length) = 1 + front.count Lines.newline := by
  have hoffset : file.offset (file.base + front.length) = front.length := by
    rw [offset, htext, List.length_append]
    omega
  rw [line, if_neg (by omega), hoffset, htext, Lines.number_append front hr]

end SourceFile

/-! ## Reading the file again -/

namespace Edit

/-- Where a position is found after text has been inserted. -/
def moved (e : Edit) (p : Int) : Int :=
  if p < e.start then p else p + (Utf8.encode e.text).length

end Edit

namespace Insertion

/-- The comment with the inserted directive. -/
def comment (ins : Insertion) : Comment :=
  let text := Permission.format ins.names
  ⟨⟨ins.edit.start, ins.edit.start + (Utf8.encode text).length⟩, text⟩

end Insertion

namespace SourceFile

/-- Whether a file is another one read again after an insertion, with `g` as the comment group that
ends with the inserted directive. Nodes have new places and start where their text has moved to. -/
structure Inserts (file : SourceFile) (ins : Insertion) (file' : SourceFile) (place : Nat → Nat)
    (g : CommentGroup) : Prop where
  base_pos : 0 < file.base
  /-- Text is inserted in front of a byte of the file. -/
  inside : file.bounds.contains ins.edit.start
  base : file'.base = file.base
  text : file'.text = file.text.take (file.offset ins.edit.start) ++ Utf8.encode ins.edit.text ++
    file.text.drop (file.offset ins.edit.start)
  tree : file.tree.KeptIn file'.tree place
  start {i : Nat} : i < file.tree.size →
    file'.tree.start (place i) = ins.edit.moved (file.tree.start i)
  last : g.comments.getLast? = some ins.comment
  first : g.start ≤ ins.edit.start
  /-- Groups come in order, and no other comment starts in the inserted text. -/
  groups : ∃ before after, file'.groups = before ++ g :: after ∧
    (∀ b ∈ before, b.start < g.start) ∧ ∀ a ∈ after, ins.edit.moved ins.edit.start ≤ a.start

/-- Whether a comment group is attached to a node: as the doc comment of a declaration, or for any
other node by starting behind what stands in front of the node. -/
def Attached (file : SourceFile) (a : Nat) (g : CommentGroup) : Prop :=
  match file.tree.kind a with
  | .funcDecl _ doc | .genDecl _ doc | .valueSpec doc => file.group? doc = some g
  | _ => file.tree.precedingStop a < g.start

namespace Inserts

variable {file file' : SourceFile} {ins : Insertion} {place : Nat → Nat} {g : CommentGroup}
  (h : file.Inserts ins file' place g)
include h

theorem stop_eq : g.stop = ins.comment.span.stop := by
  rw [CommentGroup.stop, h.last]

/-- The new text around what was inserted. -/
theorem exists_front : ∃ front back : Bytes, back ≠ [] ∧
    file'.text = front ++ Utf8.encode ins.edit.text ++ back ∧
    ins.edit.start = file'.base + front.length := by
  have hinside : file.base ≤ ins.edit.start ∧ ins.edit.start < file.base + file.text.length :=
    Span.contains_iff.1 h.inside
  have hoffset : ins.edit.start = file.base + file.offset ins.edit.start ∧
      file.offset ins.edit.start < file.text.length := by
    unfold offset
    omega
  refine ⟨_, _, ?_, h.text, ?_⟩
  · intro hnil
    have := congrArg List.length hnil
    rw [List.length_drop, List.length_nil] at this
    omega
  · rw [h.base, List.length_take]
    omega

/-- The group is the last one in front of the place that the insertion has moved. -/
theorem lastGroupBefore? (hpos : 0 < (Utf8.encode ins.edit.text).length) :
    file'.lastGroupBefore? (ins.edit.moved ins.edit.start) = some g := by
  obtain ⟨before, after, hgroups, hbefore, hafter⟩ := h.groups
  have hmoved : ins.edit.start < ins.edit.moved ins.edit.start := by
    rw [Edit.moved, if_neg (Int.lt_irrefl _)]
    omega
  have hfirst := h.first
  have hfront : ∀ b ∈ before ++ [g], b.start < ins.edit.moved ins.edit.start := by
    intro b hb
    rcases List.mem_append.1 hb with hb | hb
    · have := hbefore b hb
      omega
    · rw [List.mem_singleton.1 hb]
      omega
  rw [SourceFile.lastGroupBefore?_eq (hgroups.trans (List.append_cons ..)) hfront hafter,
    List.getLast?_concat]

variable {indent : String}
  (htext : ins.edit.text = Permission.format ins.names ++ "\n" ++ indent)
  (hdirective : Lines.newline ∉ Utf8.encode (Permission.format ins.names))
  (hindent : Lines.newline ∉ Utf8.encode indent)
include htext hdirective hindent

/-- A directive on a line of its own ends on the line above the text in front of which it was
inserted. -/
theorem line_stop_succ : file'.line g.stop + 1 = file'.line (ins.edit.moved ins.edit.start) := by
  obtain ⟨front, back, hback, hfile, hstart⟩ := h.exists_front
  have hbase : 0 < file'.base := h.base ▸ h.base_pos
  have hencode : Utf8.encode ins.edit.text =
      Utf8.encode (Permission.format ins.names) ++ Lines.newline :: Utf8.encode indent := by
    rw [htext, Utf8.encode_append, Utf8.encode_append, List.append_assoc]
    rfl
  have hstop : g.stop =
      file'.base + (front ++ Utf8.encode (Permission.format ins.names)).length := by
    rw [h.stop_eq, List.length_append]
    simp only [Insertion.comment]
    omega
  have hmoved : ins.edit.moved ins.edit.start =
      file'.base + (front ++ Utf8.encode ins.edit.text).length := by
    rw [Edit.moved, if_neg (Int.lt_irrefl _), List.length_append]
    omega
  have hsplit : file'.text = (front ++ Utf8.encode (Permission.format ins.names)) ++
      (Lines.newline :: Utf8.encode indent ++ back) := by
    rw [hfile, hencode]
    simp
  rw [hstop, hmoved, line_append hbase hsplit (List.cons_ne_nil _ _),
    line_append hbase hfile hback, hencode]
  simp [List.count_append, List.count_eq_zero_of_not_mem hdirective,
    List.count_eq_zero_of_not_mem hindent, Nat.add_assoc]

/-- The group is found above the text in front of which the directive was inserted, unless it starts
too early. -/
theorem leadingComment?_eq (limit : Int) :
    file'.leadingComment? limit (ins.edit.moved ins.edit.start) =
      if g.start ≤ limit then none else some g := by
  have hlength : (Utf8.encode ins.edit.text).length =
      (Utf8.encode (Permission.format ins.names)).length + 1 + (Utf8.encode indent).length := by
    rw [htext, Utf8.encode_append, Utf8.encode_append, List.length_append, List.length_append]
    rfl
  have hstop : ¬ ins.edit.moved ins.edit.start < g.stop := by
    rw [h.stop_eq, Edit.moved, if_neg (Int.lt_irrefl _)]
    simp only [Insertion.comment]
    omega
  have hline := h.line_stop_succ htext hdirective hindent
  rw [SourceFile.leadingComment?, h.lastGroupBefore? (by omega)]
  simp only [hstop, hline, ne_eq, not_true_eq_false, or_false]

end Inserts

end SourceFile

/-! ## Permitting a write -/

namespace Tree

variable {t : Tree} {i f : Nat}

theorem lt_size_of_function? (h : t.function? i = some f) : i < t.size ∧ f < t.size := by
  have hf : t.isFunction f := List.find?_some h
  have hfsize := lt_size_of_isFunction hf
  refine ⟨?_, hfsize⟩
  rcases mem_enclosing_iff.1 (List.mem_of_find?_eq_some h) with rfl | ⟨p, hp, -⟩
  · exact hfsize
  · exact lt_size_of_parent? hp

/-- The innermost function around a node is one of the functions around it. -/
theorem mem_functionsAround (h : t.function? i = some f) : f ∈ t.functionsAround i := by
  have hhead : ((t.enclosing i).filter t.isFunction).head? = some f := by
    rw [List.head?_filter]
    exact h
  unfold functionsAround
  cases hl : (t.enclosing i).filter t.isFunction with
  | nil => rw [hl] at hhead; cases hhead
  | cons a rest =>
    rw [hl] at hhead
    cases hhead
    unfold throughFirst
    split <;> exact List.mem_cons_self

end Tree

namespace Source

variable {src : Source} {f : Nat} {place : Nat → Nat} {g : CommentGroup}

/-- The group with the directive speaks for the function that was permitted exactly if it is
attached to its anchor. -/
theorem commentsOf?_eq_some_iff {names : List String}
    (hn : ∀ n ∈ sortedNames names, namesVariable n) (hf : f < src.tree.size) {file' : SourceFile}
    (h : src.file.Inserts (src.insertionFor f names) file' place g) :
    file'.commentsOf? (place f) = some g ↔ file'.Attached (place (src.tree.anchor f)) g := by
  have hstart : file'.tree.start (place (src.tree.anchor f)) =
      (src.insertionFor f names).edit.moved (src.insertionFor f names).edit.start :=
    h.start (Tree.anchor_lt_size hf)
  have hdirective : Lines.newline ∉ Utf8.encode (Permission.format (sortedNames names)) :=
    fun hmem => Permission.newline_notMem_format hn (Utf8.newline_mem_encode.1 hmem)
  have hleading := h.leadingComment?_eq rfl hdirective (src.file.newline_notMem_indent _)
  unfold SourceFile.commentsOf? SourceFile.anchorComments? SourceFile.Attached
  rw [h.tree.anchor hf, hstart, hleading]
  cases file'.tree.kind (place (src.tree.anchor f)) with
  | funcDecl hasBody doc => exact Iff.rfl
  | genDecl grouped doc => exact Iff.rfl
  | valueSpec doc => exact Iff.rfl
  | _ => simp

/-- The fix for a write to a variable permits it: when the file is read again with the directive
attached to the anchor of the innermost function, the group that ends with the directive speaks for
that function, a directive in it allows the name, and the write is not disallowed. -/
theorem permit_silences {cancelled params : Bool} {target : Nat} {name : String}
    (hname : namesVariable name) (hf : src.tree.function? target = some f) {ins : Insertion}
    (hins : src.permit cancelled target [name] = .ok ins) {src' : Source}
    (h : src.file.Inserts ins src'.file place g) (hg : src'.file.Attached (place ins.anchor) g)
    {o : Nat} (ho : src'.nameOf o = name) :
    src'.file.commentsOf? (place f) = some g ∧
      (∃ p ∈ Permission.ofGroup g, p.allows name) ∧
      src'.disallowed params o (place target) = false := by
  obtain ⟨htarget, hfsize⟩ := Tree.lt_size_of_function? hf
  obtain rfl : src.insertionFor f [name] = ins := by
    unfold permit at hins
    split at hins
    · cases hins
    · rw [hf] at hins
      exact Except.ok.inj hins
  have hsorted : sortedNames [name] = [name] := by
    rw [sortedNames, List.mergeSort_singleton]
    rfl
  have hn : ∀ n ∈ sortedNames [name], namesVariable n := by
    rw [hsorted]
    simpa using hname
  have hcomments := (commentsOf?_eq_some_iff hn hfsize h).2 hg
  have hallows : ∃ p ∈ Permission.ofGroup g, p.allows name := by
    obtain ⟨p, hparse, -, hnames⟩ := Permission.exists_parse?_format hn
      (show (src.insertionFor f [name]).comment.text = _ from rfl)
    have hlast := List.mem_of_getLast? h.last
    refine ⟨p, List.mem_filterMap.2 ⟨_, hlast, hparse⟩, ?_⟩
    simp [Permission.allows, hnames, hsorted]
  refine ⟨hcomments, hallows, ?_⟩
  have hpermits : src'.permits (place f) name := by
    obtain ⟨p, hp, hallow⟩ := hallows
    unfold permits SourceFile.permissionsOf
    rw [hcomments]
    exact List.any_eq_true.2 ⟨p, hp, hallow⟩
  have hfunction : src'.tree.function? (place target) = some (place f) := by
    rw [h.tree.function? htarget, hf, Option.map_some]
  rw [disallowed, Bool.and_eq_false_iff]
  right
  rw [List.all_eq_false]
  exact ⟨place f, Tree.mem_functionsAround hfunction, by simp [ho, hpermits]⟩

/-- A function literal below some comments, after text has been inserted in front of its statement:

    func f() {
      // g reassigns.
      g := func() {
        x := 1
        x = 2
      }
      g()
    }
-/
def commentedLiteral (inserted : String) (comments : List Comment) : Source :=
  let d : Int := (Utf8.encode inserted).length
  .ofFile
    (Utf8.encode "package p\n\nfunc f() \x7b\n\t// g reassigns.\n\t" ++ Utf8.encode inserted ++
      Utf8.encode "g := func() \x7b\n\t\tx := 1\n\t\tx = 2\n\t\x7d\n\tg()\n\x7d\n")
    [⟨comments⟩]
    #[
      ⟨"f", 2, .other⟩,
      ⟨"g", 2, .variable ⟨41 + d, false, true, .scope 2⟩⟩,
      ⟨"x", 1, .variable ⟨57 + d, false, true, .scope 3⟩⟩]
    #[
      ⟨.predeclared, ⟨0, 0⟩, ["f"]⟩,
      ⟨.scope 0, ⟨1, 82 + d⟩, []⟩,
      ⟨.scope 1, ⟨12, 81 + d⟩, ["g"]⟩,
      ⟨.scope 2, ⟨46 + d, 74 + d⟩, ["x"]⟩]
    #[
      ⟨.file none, none, .other, ⟨1, 81 + d⟩, none⟩,
      ⟨.ident "p" .noObject none, some 0, .name, ⟨9, 10⟩, none⟩,
      ⟨.funcDecl true none, some 0, .decls, ⟨12, 81 + d⟩, none⟩,
      ⟨.ident "f" (.object 0) none, some 2, .name, ⟨17, 18⟩, none⟩,
      ⟨.funcType, some 2, .type, ⟨12, 20⟩, none⟩,
      ⟨.fieldList, some 4, .params, ⟨18, 20⟩, none⟩,
      ⟨.blockStmt 21, some 2, .body, ⟨21, 81 + d⟩, none⟩,
      ⟨.assignStmt .define (43 + d), some 6, .list, ⟨41 + d, 74 + d⟩, none⟩,
      ⟨.ident "g" (.object 1) none, some 7, .lhs, ⟨41 + d, 42 + d⟩, none⟩,
      ⟨.funcLit, some 7, .rhs, ⟨46 + d, 74 + d⟩, some 2⟩,
      ⟨.funcType, some 9, .type, ⟨46 + d, 52 + d⟩, none⟩,
      ⟨.fieldList, some 10, .params, ⟨50 + d, 52 + d⟩, none⟩,
      ⟨.blockStmt (53 + d), some 9, .body, ⟨53 + d, 74 + d⟩, none⟩,
      ⟨.assignStmt .define (59 + d), some 12, .list, ⟨57 + d, 63 + d⟩, none⟩,
      ⟨.ident "x" (.object 2) none, some 13, .lhs, ⟨57 + d, 58 + d⟩, none⟩,
      ⟨.basicLit .integer, some 13, .rhs, ⟨62 + d, 63 + d⟩, some 1⟩,
      ⟨.assignStmt .assign (68 + d), some 12, .list, ⟨66 + d, 71 + d⟩, none⟩,
      ⟨.ident "x" .nothing (some 2), some 16, .lhs, ⟨66 + d, 67 + d⟩, none⟩,
      ⟨.basicLit .integer, some 16, .rhs, ⟨70 + d, 71 + d⟩, some 1⟩,
      ⟨.exprStmt, some 6, .list, ⟨76 + d, 79 + d⟩, none⟩,
      ⟨.callExpr, some 19, .x, ⟨76 + d, 79 + d⟩, none⟩,
      ⟨.ident "g" .nothing (some 1), some 20, .other, ⟨76 + d, 77 + d⟩, none⟩]

/-- The comment above the literal. -/
def reassigns : Comment := ⟨⟨24, 39⟩, "// g reassigns."⟩

/-- The comment that permits the literal to reassign `x`. -/
def allowX : Comment := ⟨⟨41, 64⟩, "//reassignguard:allow x"⟩

/-- The edit that permits the literal to reassign `x`. -/
def allowingX : Insertion := ⟨7, ["x"], .insertion 41 "//reassignguard:allow x\n\t"⟩

/-- The directive joins the comment that is there already. -/
theorem inserts_commentedLiteral : (commentedLiteral "" [reassigns]).file.Inserts allowingX
    (commentedLiteral allowingX.edit.text [reassigns, allowX]).file id ⟨[reassigns, allowX]⟩ := by
  have hstart : ∀ i < 22, (commentedLiteral allowingX.edit.text [reassigns, allowX]).tree.start i =
      allowingX.edit.moved ((commentedLiteral "" [reassigns]).tree.start i) := by
    decide +kernel
  exact
    { base_pos := by decide
      inside := by decide +kernel
      base := rfl
      text := by decide +kernel
      tree := by decide +kernel
      start := fun {i} hi => hstart i hi
      last := by decide +kernel
      first := by decide
      groups := ⟨[], [], rfl, by simp, by simp⟩ }

/-- The write in the literal is disallowed before the directive is inserted, and not afterwards. -/
theorem permit_silences_commentedLiteral :
    (commentedLiteral "" [reassigns]).disallowed true 2 17 ∧
      (commentedLiteral allowingX.edit.text [reassigns, allowX]).disallowed true 2 17 = false := by
  have hf : (commentedLiteral "" [reassigns]).tree.function? 17 = some 9 := by decide +kernel
  have hins : (commentedLiteral "" [reassigns]).permit false 17 ["x"] = .ok allowingX := by
    decide +kernel
  have hattached : (commentedLiteral allowingX.edit.text [reassigns, allowX]).file.Attached 7
      ⟨[reassigns, allowX]⟩ := by
    show Tree.precedingStop _ 7 < _
    decide +kernel
  refine ⟨by decide +kernel, ?_⟩
  exact (permit_silences (by decide +kernel) hf hins inserts_commentedLiteral hattached rfl).2.2

end Source

end AssignOnce
