import AssignOnce.Proofs.Analysis.Writes
import AssignOnce.Proofs.Directive.RoundTrip
import AssignOnce.Proofs.Expression.Grammar
import AssignOnce.Proofs.Fix.NewVariable
import AssignOnce.Proofs.Sample

/-!
# The value of an updated variable

The fix for `x op= e` declares `x1 := x op e`, and `x1 := x op (e)` if `e` would not be the right
operand otherwise; `x++` becomes `x1 := x + 1`. The tokens of `e` are kept as they stand, so it is
the grammar that decides how they are grouped with what is written in front of them.

* `Source.expression`: a node as an expression;
* `Source.DeclaredBy`: the tokens behind `:=` once a statement is edited;
* `Source.update_keeps_grouping`: the grammar reads these tokens as `x op e`, and in no other way.
-/

namespace AssignOnce

/-! ## Tokens of what is written -/

namespace Operator

theorem ofText_text {op : Operator} (h : op ∈ all) : ofText op.text = op := by
  have hall : ∀ op ∈ all, ofText op.text = op := by decide +kernel
  exact hall op h

theorem ne_illegal_of_mem_all {op : Operator} (h : op ∈ all) : op ≠ .illegal := by
  rintro rfl
  revert h
  decide

/-- The text of an operator is a single word. -/
theorem text_of_mem_all {op : Operator} (h : op ∈ all) : op.text ≠ "" ∧ ' ' ∉ op.text.toList := by
  have hall : ∀ op ∈ all, op.text ≠ "" ∧ ' ' ∉ op.text.toList := by decide +kernel
  exact hall op h

/-- No operator is written as a name. -/
theorem ofText_of_namesVariable {name : String} (h : namesVariable name) :
    ofText name = .illegal := by
  have hall : all.all fun op => op.text.toList.all (!continuesIdentifier ·) := by decide +kernel
  obtain ⟨hne, hchars⟩ := toList_of_namesVariable h
  obtain ⟨c, cs, hc⟩ := List.exists_cons_of_ne_nil hne
  have hmem : c ∈ name.toList := by simp [hc]
  have hnone : all.find? (·.text == name) = none := by
    refine List.find?_eq_none.2 fun op hop heq => ?_
    rw [← eq_of_beq heq] at hmem hchars
    have hnot := List.all_eq_true.1 (List.all_eq_true.1 hall op hop) c hmem
    rw [hchars c hmem] at hnot
    cases hnot
  simp [ofText, hnone]

end Operator

namespace Token

/-- The token that a word is. -/
def ofWord (word : List Char) : Token :=
  match Operator.ofText (String.ofList word) with
  | .illegal => .operand (String.ofList word)
  | op => .operator op

/-- The tokens of a text that has blanks between them. -/
def ofText (text : String) : List Token :=
  ((text.toList.splitOn ' ').filter (!·.isEmpty)).map ofWord

theorem ofText_append {word : String} (hne : word ≠ "") (hblank : ' ' ∉ word.toList)
    (rest : String) : ofText (word ++ " " ++ rest) = ofWord word.toList :: ofText rest := by
  have hsplit := List.splitOn_append_cons_self_of_not_mem hblank rest.toList
  have hword : word.toList ≠ [] := by simpa using hne
  have hchars : (word ++ " " ++ rest).toList = word.toList ++ ' ' :: rest.toList := by simp
  simp [ofText, hchars, hsplit, hword]

theorem ofWord_operator {op : Operator} (h : op ∈ Operator.all) :
    ofWord op.text.toList = .operator op := by
  have hne := Operator.ne_illegal_of_mem_all h
  simp only [ofWord, String.ofList_toList, Operator.ofText_text h]

theorem ofWord_name {name : String} (h : namesVariable name) :
    ofWord name.toList = .operand name := by
  simp only [ofWord, String.ofList_toList, Operator.ofText_of_namesVariable h]

/-- A name and an operator in front of more text. -/
theorem ofText_operands {name : String} (h : namesVariable name) {op : Operator}
    (hop : op ∈ Operator.all) (rest : String) :
    ofText (name ++ " " ++ op.text ++ " " ++ rest) = .operand name :: .operator op :: ofText rest := by
  obtain ⟨hne, hchars⟩ := toList_of_namesVariable h
  obtain ⟨hopne, hopblank⟩ := Operator.text_of_mem_all hop
  have hblank : ' ' ∉ name.toList := fun hmem => ne_of_mark (hchars ' ' hmem) (by decide) rfl
  have hassoc : name ++ " " ++ op.text ++ " " ++ rest = name ++ " " ++ (op.text ++ " " ++ rest) := by
    simp only [String.append_assoc]
  rw [hassoc, ofText_append (by simpa using hne) hblank, ofText_append hopne hopblank,
    ofWord_name h, ofWord_operator hop]

end Token

/-! ## Expressions of a file -/

namespace Arithmetic

/-- The operator that combines two operands: between truth values `&&` and `||` take the places of
`&` and `|`. -/
def combining (a : Arithmetic) (truthValues : Bool) : Operator :=
  if truthValues ∧ a = .and then .logicalAnd
  else if truthValues ∧ a = .or then .logicalOr
  else .arithmetic a

theorem forOperands_arithmetic (a : Arithmetic) (truthValues : Bool) :
    (Operator.arithmetic a).forOperands truthValues = a.combining truthValues := by
  cases a <;> cases truthValues <;> rfl

theorem combining_mem_all (a : Arithmetic) (truthValues : Bool) :
    a.combining truthValues ∈ Operator.all := by
  cases a <;> cases truthValues <;> decide

theorem precedence_combining_pos (a : Arithmetic) (truthValues : Bool) :
    0 < (a.combining truthValues).precedence := by
  cases a <;> cases truthValues <;> decide

end Arithmetic

namespace Kind

/-- The operator by which a statement `x op= e`, `x++` or `x--` updates its left side. -/
def updates? : Kind → Option Arithmetic
  | .assignStmt (.update a) _ => some a
  | .incDecStmt .increment => some .add
  | .incDecStmt .decrement => some .sub
  | _ => none

/-- What an expression with a single part makes of it, if parentheses or an operator stand around
or in front of that part. -/
def encloses? : Kind → Option (Expression → Expression)
  | .parenExpr => some .paren
  | .unaryExpr op => some (.unary op)
  | .starExpr => some (.unary (.arithmetic .mul))
  | _ => none

end Kind

namespace Source

open Expression (Reads)
open Operator (unaryPrecedence)

variable {src : Source}

/-- The text of a node as it stands in the file. -/
def textOf (src : Source) (i : Nat) : String :=
  Utf8.toString ((src.file.text.take (src.file.offset (src.tree.stop i))).drop
    (src.file.offset (src.tree.start i)))

/-- A node as an expression. What is neither an operation nor in parentheses is an operand. -/
def expression (src : Source) (i : Nat) : Expression :=
  match src.tree.kind i with
  | .binaryExpr op =>
    match _hx : src.tree.childIn? i .x, _hy : src.tree.childIn? i .other with
    | some x, some y => .binary op (src.expression x) (src.expression y)
    | _, _ => .operand (src.textOf i)
  | k =>
    match k.encloses?, _hx : src.tree.childIn? i .x with
    | some enclose, some x => enclose (src.expression x)
    | _, _ => .operand (src.textOf i)
termination_by src.tree.size - i
decreasing_by
  all_goals
    have := Tree.childIn?_bounds _hx
    try have := Tree.childIn?_bounds _hy
    omega

theorem level_of_encloses? {k : Kind} {enclose : Expression → Expression}
    (h : k.encloses? = some enclose) (e : Expression) : (enclose e).level = unaryPrecedence := by
  unfold Kind.encloses? at h
  split at h <;> cases h <;> rfl

/-- An expression that gets no parentheses binds more strongly than the operator in front of it. -/
theorem precedence_lt_level {op : Operator} {e : Nat} (h : src.tree.needsParens op e = false) :
    op.precedence < (src.expression e).level := by
  have hop := op.precedence_lt
  rw [expression]
  split
  · rename_i inner hk
    have hlt : op.precedence < inner.precedence := by
      have hself : src.tree.unparen e = e := Tree.unparen_of_kind_ne (by simp [hk])
      simpa [Tree.needsParens, hself, hk, Operator.parenthesizes] using h
    split
    · exact hlt
    · exact hop
  · split
    · rename_i henclose _
      rw [level_of_encloses? henclose]
      exact hop
    · exact hop

/-! ## Declarations in place of updates -/

/-- The value by which a statement `x op= e`, `x++` or `x--` updates `x`. -/
def operandOf (src : Source) (stmt : Nat) : Expression :=
  match src.tree.kind stmt with
  | .incDecStmt _ => .operand "1"
  | _ => src.expression (src.tree.firstRhs stmt)

/-- The edits that turn a statement into a declaration `name := …`, with the tokens behind the sign.
The tokens of the right side of the statement are kept unless all of it is replaced. -/
inductive DeclaredBy (src : Source) (stmt : Nat) (kept : List Token) (name : String) :
    List Edit → List Token → Prop
  | whole (text : String) : DeclaredBy src stmt kept name
      [.replacement (src.tree.span stmt) (name ++ " := " ++ text)] (Token.ofText text)
  | front (text : String) : DeclaredBy src stmt kept name
      [.replacement ⟨src.tree.start stmt, src.tree.start (src.tree.firstRhs stmt)⟩
        (name ++ " := " ++ text)]
      (Token.ofText text ++ kept)
  | around (text closing : String) : DeclaredBy src stmt kept name
      [.replacement ⟨src.tree.start stmt, src.tree.start (src.tree.firstRhs stmt)⟩
        (name ++ " := " ++ text), .insertion (src.tree.stop (src.tree.firstRhs stmt)) closing]
      (Token.ofText text ++ kept ++ Token.ofText closing)

theorem operandText_eq (o : Nat) (op : Operator) (name rest : String) :
    src.operandText o op name ++ rest =
      name ++ " := " ++ (src.nameOf o ++ " " ++ op.text ++ " " ++ rest) := by
  simp only [operandText, String.append_assoc]

/-- A variable in front of an operator and an operand that binds more strongly. -/
theorem reads_operand {op : Operator} (hop : 0 < op.precedence) (x : String) {ts : List Token}
    {e : Expression} (h : Reads (op.precedence + 1) ts e) :
    Reads 1 (.operand x :: .operator op :: ts) (.binary op (.operand x) e) := by
  have hx : Reads op.precedence [.operand x] (.operand x) :=
    (Reads.operand x).mono (Nat.le_of_lt op.precedence_lt)
  exact (Reads.binary hop hx h).mono hop

variable {o stmt : Nat} {name : String} {kept : List Token}

/-- What is declared in place of `x op= e`. -/
theorem declareCompound_reads (hname : namesVariable (src.nameOf o)) (a : Arithmetic)
    (name : String) (hkept : Reads 1 kept (src.expression (src.tree.firstRhs stmt))) :
    ∃ tokens right,
      src.DeclaredBy stmt kept name (src.declareCompound stmt o (.arithmetic a) name).edits tokens ∧
      (right = src.expression (src.tree.firstRhs stmt) ∨
        right = .paren (src.expression (src.tree.firstRhs stmt))) ∧
      Reads 1 tokens (.binary (a.combining (src.package.types.isBoolean (some (src.typeOf o))))
        (.operand (src.nameOf o)) right) := by
  unfold declareCompound operatorFor
  rw [Arithmetic.forOperands_arithmetic]
  generalize src.package.types.isBoolean (some (src.typeOf o)) = truthValues
  have hall := a.combining_mem_all truthValues
  have hpos := a.precedence_combining_pos truthValues
  generalize a.combining truthValues = op at hall hpos
  have hlt := op.precedence_lt
  dsimp only
  split
  · have hdeclares : src.DeclaredBy stmt kept name _ _ :=
      .around (src.nameOf o ++ " " ++ op.text ++ " " ++ "(") ")"
    rw [Token.ofText_operands hname hall, ← operandText_eq] at hdeclares
    exact ⟨_, _, hdeclares, .inr rfl, reads_operand hpos _ ((Reads.paren hkept).mono hlt)⟩
  · rename_i hparens
    have hdeclares : src.DeclaredBy stmt kept name _ _ :=
      .front (src.nameOf o ++ " " ++ op.text ++ " " ++ "")
    rw [Token.ofText_operands hname hall, ← operandText_eq, String.append_empty] at hdeclares
    have hright := precedence_lt_level (Bool.eq_false_iff.2 hparens)
    exact ⟨_, _, hdeclares, .inl rfl, reads_operand hpos _ (hkept.at_level.mono hright)⟩

/-- What is declared in place of `x++` or `x--`. -/
theorem declareIncDec_reads (hname : namesVariable (src.nameOf o)) (a : Arithmetic) (stmt : Nat)
    (kept : List Token) (name : String) :
    ∃ tokens,
      src.DeclaredBy stmt kept name (src.declareIncDec stmt o (.arithmetic a) name).edits tokens ∧
      Reads 1 tokens (.binary (a.combining (src.package.types.isBoolean (some (src.typeOf o))))
        (.operand (src.nameOf o)) (.operand "1")) := by
  unfold declareIncDec operatorFor
  rw [Arithmetic.forOperands_arithmetic, operandText_eq]
  generalize src.package.types.isBoolean (some (src.typeOf o)) = truthValues
  have hall := a.combining_mem_all truthValues
  have hpos := a.precedence_combining_pos truthValues
  generalize a.combining truthValues = op at hall hpos
  refine ⟨_, .whole _, ?_⟩
  rw [Token.ofText_operands hname hall]
  exact reads_operand hpos _ ((Reads.operand "1").mono op.precedence_lt)

theorem start_declareCompound (op : Operator) :
    (src.declareCompound stmt o op name).start = src.tree.stop stmt := by
  unfold declareCompound
  dsimp only
  split <;> rfl

theorem start_of_mem_renameFor {w : Write} {start : Int} {root : Nat} {edit : Edit}
    (h : edit ∈ (src.renameFor w o name start).edits src.tree root) : start ≤ edit.start := by
  obtain ⟨i, hi, rfl⟩ := List.mem_map.1 h
  have happlies := (List.mem_filter.1 hi).2
  simp only [Rename.applies, Rename.covers, Bool.and_eq_true, decide_eq_true_eq] at happlies
  exact happlies.1.2.1

/-- The fix for `x op= e`, `x++` or `x--` declares a new variable in place of the statement. However
the right side is made up, the grammar reads what stands behind `:=` as the operator applied to `x`
and the right side, which may have got parentheses, and in no other way. -/
theorem update_keeps_grouping {outArgs cancelled : Bool} {root : Nat} {n : Namer} {w : Write}
    {a : Arithmetic} {edits : List Edit} (hw : w ∈ src.tree.writes outArgs root)
    (harg : w.kind.isOutArg = false) (hop : (src.tree.kind w.stmt).updates? = some a)
    (ho : src.written? w = .ok o) (hname : namesVariable (src.nameOf o))
    (hkept : Reads 1 kept (src.operandOf w.stmt))
    (h : (src.newVariable cancelled n w).1 = .ok edits) :
    ∃ s n' name own refs tokens right,
      n.unique src.package.scopes (src.nameOf o) s = .ok (name, n') ∧ edits = own ++ refs ∧
      (∀ r ∈ refs, src.tree.stop w.stmt ≤ r.start) ∧ src.DeclaredBy w.stmt kept name own tokens ∧
      (right = src.operandOf w.stmt ∨ right = .paren (src.operandOf w.stmt)) ∧
      ∀ e, Reads 1 tokens e ↔
        e = .binary (a.combining (src.package.types.isBoolean (some (src.typeOf o))))
          (.operand (src.nameOf o)) right := by
  obtain ⟨i, -, hw⟩ := List.mem_flatMap.1 hw
  have hw := Tree.writesAt_of_mem hw
  obtain ⟨o', place, name, n', d, refs, ho', -, hunique, hd, hrefs, rfl⟩ := newVariable_eq_ok h
  obtain rfl : o' = o := Except.ok.inj (ho'.symm.trans ho)
  have hlater : d.start = src.tree.stop w.stmt → ∀ r ∈ refs, src.tree.stop w.stmt ≤ r.start := by
    intro hstart r hr
    rw [(references_eq_ok hrefs).1, hstart] at hr
    exact start_of_mem_renameFor hr
  have hiff : ∀ {tokens e}, Reads 1 tokens e → ∀ e', Reads 1 tokens e' ↔ e' = e :=
    fun hreads e' => ⟨fun h' => h'.unique hreads, fun h' => h' ▸ hreads⟩
  cases hw with
  | @compound op pos e x hk _ _ _ _ =>
    obtain rfl : op = .update a := by
      cases op <;> simp_all [Kind.updates?]
    obtain rfl := Except.ok.inj hd
    simp only [operandOf, hk] at hkept ⊢
    obtain ⟨tokens, right, hdeclares, hright, hreads⟩ :=
      declareCompound_reads hname a name hkept
    exact ⟨_, n', name, _, refs, tokens, right, hunique, rfl, hlater (start_declareCompound _),
      hdeclares, hright, hiff hreads⟩
  | @incDec op e x hk _ _ =>
    have hstep : Tree.stepOperator op = .arithmetic a := by
      cases op <;> simp_all [Kind.updates?, Tree.stepOperator]
    rw [declare, hstep] at hd
    obtain rfl := Except.ok.inj hd
    simp only [operandOf, hk] at hkept ⊢
    obtain ⟨tokens, hdeclares, hreads⟩ :=
      declareIncDec_reads hname a i kept name
    exact ⟨_, n', name, _, refs, tokens, _, hunique, rfl, hlater rfl, hdeclares, .inl rfl,
      hiff hreads⟩
  | assign hk | tuple hk | redefine hk => simp [hk, Kind.updates?] at hop
  | outArg => cases harg

/-- A function that updates a truth value:

    b &= c || b
    b |= c && b
    _ = b
-/
def updatedTruthValue : Source :=
  .ofFile
    (Utf8.encode "package p\n\nfunc f(b, c bool) \x7b\n" ++
      Utf8.encode "\tb &= c || b\n\tb |= c && b\n\t_ = b\n\x7d\n")
    []
    #[
      ⟨"f", 7, .other⟩,
      ⟨"b", 0, .variable ⟨19, false, true, .scope 2⟩⟩,
      ⟨"c", 0, .variable ⟨22, false, true, .scope 2⟩⟩,
      ⟨"bool", 0, .other⟩]
    #[
      ⟨.predeclared, ⟨0, 0⟩, ["f"]⟩,
      ⟨.scope 0, ⟨1, 67⟩, []⟩,
      ⟨.scope 1, ⟨12, 66⟩, ["b", "c"]⟩]
    #[
      ⟨.file none, none, .other, ⟨1, 66⟩, none⟩,
      ⟨.ident "p" .noObject none, some 0, .name, ⟨9, 10⟩, none⟩,
      ⟨.funcDecl true none, some 0, .decls, ⟨12, 66⟩, none⟩,
      ⟨.ident "f" (.object 0) none, some 2, .name, ⟨17, 18⟩, none⟩,
      ⟨.funcType, some 2, .type, ⟨12, 29⟩, none⟩,
      ⟨.fieldList, some 4, .params, ⟨18, 29⟩, none⟩,
      ⟨.field, some 5, .list, ⟨19, 28⟩, none⟩,
      ⟨.ident "b" (.object 1) none, some 6, .names, ⟨19, 20⟩, none⟩,
      ⟨.ident "c" (.object 2) none, some 6, .names, ⟨22, 23⟩, none⟩,
      ⟨.ident "bool" .nothing (some 3), some 6, .type, ⟨24, 28⟩, none⟩,
      ⟨.blockStmt 30, some 2, .body, ⟨30, 66⟩, none⟩,
      ⟨.assignStmt (.update .and) 35, some 10, .list, ⟨33, 44⟩, none⟩,
      ⟨.ident "b" .nothing (some 1), some 11, .lhs, ⟨33, 34⟩, none⟩,
      ⟨.binaryExpr .logicalOr, some 11, .rhs, ⟨38, 44⟩, some 0⟩,
      ⟨.ident "c" .nothing (some 2), some 13, .x, ⟨38, 39⟩, none⟩,
      ⟨.ident "b" .nothing (some 1), some 13, .other, ⟨43, 44⟩, none⟩,
      ⟨.assignStmt (.update .or) 48, some 10, .list, ⟨46, 57⟩, none⟩,
      ⟨.ident "b" .nothing (some 1), some 16, .lhs, ⟨46, 47⟩, none⟩,
      ⟨.binaryExpr .logicalAnd, some 16, .rhs, ⟨51, 57⟩, some 0⟩,
      ⟨.ident "c" .nothing (some 2), some 18, .x, ⟨51, 52⟩, none⟩,
      ⟨.ident "b" .nothing (some 1), some 18, .other, ⟨56, 57⟩, none⟩,
      ⟨.assignStmt .assign 61, some 10, .list, ⟨59, 64⟩, none⟩,
      ⟨.ident "_" .noObject none, some 21, .lhs, ⟨59, 60⟩, none⟩,
      ⟨.ident "b" .nothing (some 1), some 21, .rhs, ⟨63, 64⟩, some 0⟩]

/-- The tokens of `c || b`. -/
def eitherTokens : List Token := [.operand "c", .operator .logicalOr, .operand "b"]

/-- For `b &= c || b` the fix writes `b1 := b && (c || b)`. -/
theorem update_keeps_grouping_updatedTruthValue :
    (updatedTruthValue.newVariable false (.ofLimit 0) ⟨.compound (.arithmetic .and), 11, 12⟩).1 =
        .ok [.replacement ⟨33, 38⟩ "b1 := b && (", .insertion 44 ")", .replacement ⟨46, 47⟩ "b1",
          .replacement ⟨56, 57⟩ "b1", .replacement ⟨63, 64⟩ "b1"] ∧
      Reads 1 eitherTokens (updatedTruthValue.operandOf 11) ∧
      ∃ name own refs tokens right,
        (updatedTruthValue.newVariable false (.ofLimit 0)
          ⟨.compound (.arithmetic .and), 11, 12⟩).1 = .ok (own ++ refs) ∧
        updatedTruthValue.DeclaredBy 11 eitherTokens name own tokens ∧
        (right = updatedTruthValue.operandOf 11 ∨
          right = .paren (updatedTruthValue.operandOf 11)) ∧
        ∀ e, Reads 1 tokens e ↔ e = .binary .logicalAnd (.operand "b") right := by
  have h : (updatedTruthValue.newVariable false (.ofLimit 0)
      ⟨.compound (.arithmetic .and), 11, 12⟩).1 =
        .ok [.replacement ⟨33, 38⟩ "b1 := b && (", .insertion 44 ")", .replacement ⟨46, 47⟩ "b1",
          .replacement ⟨56, 57⟩ "b1", .replacement ⟨63, 64⟩ "b1"] := by decide +kernel
  have hoperand : updatedTruthValue.operandOf 11 =
      .binary .logicalOr (.operand "c") (.operand "b") := by decide +kernel
  have hkept : Reads 1 eitherTokens (updatedTruthValue.operandOf 11) := by
    rw [hoperand]
    exact reads_operand (by decide) "c" ((Reads.operand "b").mono (by decide))
  have hw : ⟨.compound (.arithmetic .and), 11, 12⟩ ∈ updatedTruthValue.tree.writes false 0 := by
    decide +kernel
  have hop : (updatedTruthValue.tree.kind 11).updates? = some .and := by decide +kernel
  have ho : updatedTruthValue.written? ⟨.compound (.arithmetic .and), 11, 12⟩ = .ok 1 := by
    decide +kernel
  obtain ⟨s, n', name, own, refs, tokens, right, -, hedits, -, hdeclares, hright, hreads⟩ :=
    update_keeps_grouping hw rfl hop ho (by decide +kernel) hkept h
  exact ⟨h, hkept, name, own, refs, tokens, right, h.trans (congrArg _ hedits), hdeclares, hright,
    hreads⟩

end Source

end AssignOnce
