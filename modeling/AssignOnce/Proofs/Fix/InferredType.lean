import AssignOnce.Proofs.Analysis.Writes
import AssignOnce.Proofs.Fix.NewVariable
import AssignOnce.Proofs.Sample

/-!
# The type of an inferred declaration

`x = e` is turned into `x1 := e` if that is taken to give `x1` the type of `x`. An untyped constant
expression (`Source.Constant`) has a kind, the largest of the kinds of its operands, and a variable
that is declared with it gets the type of that kind. What is recorded of the expression is the type
it was converted to, which is the type of `x`. Literals and names are therefore looked at
themselves, but an operation is taken at its recorded type: its declaration is always inferred,
whether or not its kind has the type of `x` (`Source.inferred_iff`).
-/

namespace AssignOnce

/-- The kinds of untyped numbers. -/
inductive NumberKind where
  | int
  | rune
  | float
  | complex
  deriving DecidableEq, Repr

namespace NumberKind

/-- The place of a kind in the order of the kinds. -/
def rank : NumberKind → Nat
  | .int => 0
  | .rune => 1
  | .float => 2
  | .complex => 3

/-- The larger one of two kinds. -/
def larger (a b : NumberKind) : NumberKind :=
  if a.rank ≤ b.rank then b else a

end NumberKind

/-- The kinds of untyped constants. -/
inductive ConstantKind where
  | bool
  | string
  | number (k : NumberKind)
  deriving DecidableEq, Repr

namespace ConstantKind

/-- The type of a variable that is declared with a constant of a kind. -/
def type : ConstantKind → Nat
  | .bool => TypeTable.bool
  | .string => TypeTable.string
  | .number .int => TypeTable.int
  | .number .rune => TypeTable.rune
  | .number .float => TypeTable.float64
  | .number .complex => TypeTable.complex128

end ConstantKind

namespace LiteralKind

/-- The kind of the constant that a literal is. -/
def constantKind : LiteralKind → ConstantKind
  | .integer => .number .int
  | .float => .number .float
  | .imaginary => .number .complex
  | .character => .number .rune
  | .string => .string

theorem type_constantKind (l : LiteralKind) : l.constantKind.type = l.type := by
  cases l <;> rfl

end LiteralKind

namespace Kind

/-- Whether a kind is an operation on one or two operands. -/
def isOperation : Kind → Bool
  | .unaryExpr _ | .binaryExpr _ => true
  | _ => false

end Kind

namespace Source

variable {src : Source} {e o : Nat} {k : ConstantKind}

/-! ## Constant expressions -/

/-- Whether an object is an untyped constant of a kind. -/
def IsUntyped (src : Source) (o : Nat) (k : ConstantKind) : Prop :=
  (src.package.object o).kind = .other ∧
    (src.package.types.entry (src.package.object o).type).shape = .basic false true (some k.type)

/-- The untyped constant expressions with their kinds. -/
inductive Constant (src : Source) : Nat → ConstantKind → Prop
  | literal {e : Nat} {l : LiteralKind} : src.tree.kind e = .basicLit l →
      Constant src e l.constantKind
  | name {e o : Nat} {name : String} {d : Declares} {k : ConstantKind} :
      src.tree.kind e = .ident name d (some o) → src.IsUntyped o k → Constant src e k
  | paren {e x : Nat} {k : ConstantKind} : src.tree.kind e = .parenExpr →
      src.tree.childIn? e .x = some x → Constant src x k → Constant src e k
  /-- `+x`, `-x` and `^x`. -/
  | unary {e x : Nat} {op : Arithmetic} {k : NumberKind} :
      src.tree.kind e = .unaryExpr (.arithmetic op) → op ∈ [.add, .sub, .xor] →
      src.tree.childIn? e .x = some x → Constant src x (.number k) → Constant src e (.number k)
  /-- `x + y`, `x - y`, `x * y` and `x / y`. -/
  | binary {e x y : Nat} {op : Arithmetic} {a b : NumberKind} :
      src.tree.kind e = .binaryExpr (.arithmetic op) → op ∈ [.add, .sub, .mul, .quo] →
      src.tree.childIn? e .x = some x → src.tree.childIn? e .other = some y →
      Constant src x (.number a) → Constant src y (.number b) →
      Constant src e (.number (a.larger b))
  /-- `x + y` of strings. -/
  | concat {e x y : Nat} : src.tree.kind e = .binaryExpr (.arithmetic .add) →
      src.tree.childIn? e .x = some x → src.tree.childIn? e .other = some y →
      Constant src x .string → Constant src y .string → Constant src e .string

/-- Parentheses change neither a constant nor its kind. -/
theorem Constant.unparen (h : src.Constant e k) :
    src.Constant (src.tree.unparen e) k ∧ src.tree.kind (src.tree.unparen e) ≠ .parenExpr := by
  have of_ne : ∀ {e k}, src.Constant e k → src.tree.kind e ≠ .parenExpr →
      src.Constant (src.tree.unparen e) k ∧ src.tree.kind (src.tree.unparen e) ≠ .parenExpr := by
    intro e k h hne
    rw [Tree.unparen_of_kind_ne hne]
    exact ⟨h, hne⟩
  induction h with
  | literal hk => exact of_ne (.literal hk) (by simp [hk])
  | name hk ho => exact of_ne (.name hk ho) (by simp [hk])
  | paren hk hx _ ih => rwa [Tree.unparen_of_childIn? hk hx]
  | unary hk hop hx h => exact of_ne (.unary hk hop hx h) (by simp [hk])
  | binary hk hop hx hy h h' => exact of_ne (.binary hk hop hx hy h h') (by simp [hk])
  | concat hk hx hy h h' => exact of_ne (.concat hk hx hy h h') (by simp [hk])

theorem objectType_of_isUntyped (h : src.IsUntyped o k) : src.objectType o = k.type := by
  simp only [objectType, h.1, TypeTable.defaultOf, h.2]

/-- A literal or name is taken to give a variable the type of its kind, and an operation the type
that is recorded for it. -/
theorem Constant.valueType?_eq (h : src.Constant e k) :
    src.valueType? e =
      if (src.tree.kind (src.tree.unparen e)).isOperation then
        (src.recordedType? e).map src.package.types.defaultOf
      else some k.type := by
  obtain ⟨h, hne⟩ := h.unparen
  unfold valueType?
  generalize src.tree.unparen e = x at h hne
  cases h with
  | literal hk => simp [hk, Kind.isOperation, LiteralKind.type_constantKind]
  | name hk ho => simp [hk, Kind.isOperation, objectType_of_isUntyped ho]
  | paren hk => exact absurd hk hne
  | unary hk | binary hk | concat hk => simp [hk, Kind.isOperation]

/-! ## Declarations -/

/-- Whether an expression was converted to the type of a variable: that type is recorded for it, and
no untyped one. -/
def IsConverted (src : Source) (e o : Nat) : Prop :=
  ∃ t, src.recordedType? e = some t ∧ src.package.types.defaultOf t = t ∧
    src.package.types.identical (some t) (some (src.typeOf o))

/-- Whether a constant that is assigned is taken to give a new variable the type of the old one. -/
theorem infers_iff {stmt a : Nat} (hl : src.tree.lhs stmt = [a]) (hr : src.tree.rhs stmt = [e])
    (hc : src.Constant e k) (hconv : src.IsConverted e o) :
    src.infers stmt 0 o ↔ (src.tree.kind (src.tree.unparen e)).isOperation ∨
      src.package.types.identical (some k.type) (some (src.typeOf o)) := by
  obtain ⟨t, ht, htyped, hid⟩ := hconv
  have htype : src.assignedType? stmt 0 = src.valueType? e := by simp [assignedType?, hl, hr]
  rw [infers, htype, hc.valueType?_eq]
  split
  · rename_i hop
    simp [ht, htyped, hid, hop]
  · rename_i hop
    simp [hop]

/-- A declaration in place of `x = e` is inferred, or else spells the type of `x`. -/
theorem declareAssign_eq_ok {stmt : Nat} {name : String} {d : Declaration}
    (h : src.declareAssign stmt o name = .ok d) :
    d.start = src.tree.stop stmt ∧
      if src.infers stmt 0 o then
        d.edits = [.replacement (src.tree.span (src.tree.lhsAt stmt 0)) name,
          src.tree.defineEdit stmt]
      else
        ∃ type, src.spellType (src.typeOf o) = .ok type ∧
          d.edits = [.replacement ⟨src.tree.start stmt, src.tree.start (src.tree.firstRhs stmt)⟩
            ("var " ++ name ++ " " ++ type ++ " = ")] := by
  unfold declareAssign at h
  dsimp only at h
  split at h
  · rename_i hi
    cases h
    exact ⟨rfl, by rw [if_pos hi]⟩
  · rename_i hi
    obtain ⟨type, htype, rfl⟩ := exists_type_of_map_declaredType h
    rw [if_neg hi]
    exact ⟨rfl, type, htype, rfl⟩

/-- The fix for an assignment `x = e` of an untyped constant that was converted to the type of `x`:
the declaration is inferred exactly if the constant is an operation, or has a kind whose type is
that of `x`. Otherwise the type of `x` is spelled. -/
theorem inferred_iff {outArgs cancelled : Bool} {root : Nat} {n : Namer} {w : Write}
    {edits : List Edit} (hw : w ∈ src.tree.writes outArgs root) (hk : w.kind = .assign)
    (hr : src.tree.rhs w.stmt = [e]) (hc : src.Constant e k) (ho : src.written? w = .ok o)
    (hconv : src.IsConverted e o) (h : (src.newVariable cancelled n w).1 = .ok edits) :
    ∃ name refs,
      refs = (src.renameFor w o name (src.tree.stop w.stmt)).edits src.tree (src.referenceRoot w) ∧
      if (src.tree.kind (src.tree.unparen e)).isOperation ∨
          src.package.types.identical (some k.type) (some (src.typeOf o)) then
        edits = .replacement (src.tree.span (src.tree.lhsAt w.stmt 0)) name ::
          src.tree.defineEdit w.stmt :: refs
      else
        ∃ type, src.spellType (src.typeOf o) = .ok type ∧
          edits = .replacement ⟨src.tree.start w.stmt, src.tree.start e⟩
            ("var " ++ name ++ " " ++ type ++ " = ") :: refs := by
  obtain ⟨i, -, hw⟩ := List.mem_flatMap.1 hw
  have hw := Tree.writesAt_of_mem hw
  obtain ⟨o', place, name, n', d, refs, ho', -, -, hd, hrefs, rfl⟩ := newVariable_eq_ok h
  obtain rfl : o' = o := Except.ok.inj (ho'.symm.trans ho)
  cases hw with
  | assign _ hl _ =>
    obtain ⟨hstart, hedits⟩ := declareAssign_eq_ok hd
    have hfirst : src.tree.firstRhs i = e := by simp [Tree.firstRhs, hr]
    rw [hfirst] at hedits
    have hcond := infers_iff hl hr hc hconv
    refine ⟨name, refs, hstart ▸ (references_eq_ok hrefs).1, ?_⟩
    by_cases hinfers : src.infers i 0 o'
    · rw [if_pos (hcond.1 hinfers)]
      rw [if_pos hinfers] at hedits
      rw [hedits]
      rfl
    · rw [if_neg (fun hyes => hinfers (hcond.2 hyes))]
      rw [if_neg hinfers] at hedits
      obtain ⟨type, htype, hedits⟩ := hedits
      exact ⟨type, htype, by rw [hedits]; rfl⟩
  | compound | incDec | tuple | redefine | outArg => cases hk

/-- The predeclared types, and the types of functions and of small integers. -/
def smallIntegers : TypeTable := #[
  ⟨.basic false false none, 0, [.text "bool"], true⟩,
  ⟨.basic false false none, 1, [.text "int"], false⟩,
  ⟨.basic false false none, 2, [.text "float64"], false⟩,
  ⟨.basic false false none, 3, [.text "complex128"], false⟩,
  ⟨.basic false false none, 4, [.text "rune"], false⟩,
  ⟨.basic false false none, 5, [.text "string"], false⟩,
  ⟨.basic false true none, 6, [.text "untyped nil"], false⟩,
  ⟨.composite [], 7, [.text "func()"], false⟩,
  ⟨.basic false false none, 8, [.text "int8"], false⟩]

/-- A function that assigns an operation and a literal:

    var i int8
    i = -1
    i = (2)
    _ = i
-/
def negatedLiteral : Source :=
  let src : Source := .ofFile
    (Utf8.encode "package p\n\nfunc f() \x7b\n\tvar i int8\n\ti = -1\n\ti = (2)\n\t_ = i\n\x7d\n")
    []
    #[
      ⟨"f", 7, .other⟩,
      ⟨"i", 8, .variable ⟨28, false, true, .scope 2⟩⟩,
      ⟨"int8", 8, .other⟩]
    #[
      ⟨.predeclared, ⟨0, 0⟩, ["f"]⟩,
      ⟨.scope 0, ⟨1, 61⟩, []⟩,
      ⟨.scope 1, ⟨12, 60⟩, ["i"]⟩]
    #[
      ⟨.file none, none, .other, ⟨1, 60⟩, none⟩,
      ⟨.ident "p" .noObject none, some 0, .name, ⟨9, 10⟩, none⟩,
      ⟨.funcDecl true none, some 0, .decls, ⟨12, 60⟩, none⟩,
      ⟨.ident "f" (.object 0) none, some 2, .name, ⟨17, 18⟩, none⟩,
      ⟨.funcType, some 2, .type, ⟨12, 20⟩, none⟩,
      ⟨.fieldList, some 4, .params, ⟨18, 20⟩, none⟩,
      ⟨.blockStmt 21, some 2, .body, ⟨21, 60⟩, none⟩,
      ⟨.declStmt, some 6, .list, ⟨24, 34⟩, none⟩,
      ⟨.genDecl false none, some 7, .other, ⟨24, 34⟩, none⟩,
      ⟨.valueSpec none, some 8, .specs, ⟨28, 34⟩, none⟩,
      ⟨.ident "i" (.object 1) none, some 9, .names, ⟨28, 29⟩, none⟩,
      ⟨.ident "int8" .nothing (some 2), some 9, .type, ⟨30, 34⟩, none⟩,
      ⟨.assignStmt .assign 38, some 6, .list, ⟨36, 42⟩, none⟩,
      ⟨.ident "i" .nothing (some 1), some 12, .lhs, ⟨36, 37⟩, none⟩,
      ⟨.unaryExpr (.arithmetic .sub), some 12, .rhs, ⟨40, 42⟩, some 8⟩,
      ⟨.basicLit .integer, some 14, .x, ⟨41, 42⟩, none⟩,
      ⟨.assignStmt .assign 46, some 6, .list, ⟨44, 51⟩, none⟩,
      ⟨.ident "i" .nothing (some 1), some 16, .lhs, ⟨44, 45⟩, none⟩,
      ⟨.parenExpr, some 16, .rhs, ⟨48, 51⟩, some 8⟩,
      ⟨.basicLit .integer, some 18, .x, ⟨49, 50⟩, none⟩,
      ⟨.assignStmt .assign 55, some 6, .list, ⟨53, 58⟩, none⟩,
      ⟨.ident "_" .noObject none, some 20, .lhs, ⟨53, 54⟩, none⟩,
      ⟨.ident "i" .nothing (some 1), some 20, .rhs, ⟨57, 58⟩, some 8⟩]
  { src with package.types := smallIntegers }

theorem constant_negatedLiteral :
    negatedLiteral.Constant 14 (.number .int) ∧ negatedLiteral.Constant 18 (.number .int) := by
  have hone : negatedLiteral.Constant 15 (.number .int) :=
    .literal (l := .integer) (by decide +kernel)
  have htwo : negatedLiteral.Constant 19 (.number .int) :=
    .literal (l := .integer) (by decide +kernel)
  have hkind : negatedLiteral.tree.kind 14 = .unaryExpr (.arithmetic .sub) := by decide +kernel
  constructor
  · exact .unary hkind (by decide) (by decide +kernel) hone
  · exact .paren (by decide +kernel) (by decide +kernel) htwo

/-- For the literal `(2)` the type `int8` is spelled. -/
theorem inferred_iff_negatedLiteral :
    negatedLiteral.Constant 18 (.number .int) ∧ negatedLiteral.IsConverted 18 1 ∧
      ∃ name type refs, negatedLiteral.spellType (negatedLiteral.typeOf 1) = .ok type ∧
        (negatedLiteral.newVariable false (.ofLimit 0) ⟨.assign, 16, 17⟩).1 =
          .ok (.replacement ⟨44, 48⟩ ("var " ++ name ++ " " ++ type ++ " = ") :: refs) := by
  have hw : ⟨.assign, 16, 17⟩ ∈ negatedLiteral.tree.writes false 0 := by decide +kernel
  have hconv : negatedLiteral.IsConverted 18 1 := ⟨8, by decide +kernel⟩
  have h : (negatedLiteral.newVariable false (.ofLimit 0) ⟨.assign, 16, 17⟩).1 =
      .ok [.replacement ⟨44, 48⟩ "var i1 int8 = ", .replacement ⟨57, 58⟩ "i1"] := by decide +kernel
  obtain ⟨name, refs, -, hedits⟩ :=
    inferred_iff hw rfl (by decide +kernel) constant_negatedLiteral.2 (by decide +kernel) hconv h
  rw [if_neg (by decide +kernel)] at hedits
  obtain ⟨type, htype, hedits⟩ := hedits
  exact ⟨constant_negatedLiteral.2, hconv, name, type, refs, htype, h.trans (congrArg _ hedits)⟩

/-- For `-1`, which makes `i1` an `int`, the declaration is inferred although `i` is no `int`. -/
theorem inferred_negatedLiteral :
    negatedLiteral.Constant 14 (.number .int) ∧ negatedLiteral.recordedType? 14 = some 8 ∧
      negatedLiteral.written? ⟨.assign, 12, 13⟩ = .ok 1 ∧ negatedLiteral.typeOf 1 = 8 ∧
      negatedLiteral.package.types.identical (some (ConstantKind.number .int).type) (some 8) =
        false ∧
      (negatedLiteral.newVariable false (.ofLimit 0) ⟨.assign, 12, 13⟩).1 =
        .ok [.replacement ⟨36, 37⟩ "i1", .replacement ⟨38, 39⟩ ":=", .replacement ⟨44, 45⟩ "i1",
          .replacement ⟨57, 58⟩ "i1"] :=
  ⟨constant_negatedLiteral.1, by decide +kernel⟩

end Source

end AssignOnce
