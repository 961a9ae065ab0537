import AssignOnce.Proofs.Analysis.Classifier
import AssignOnce.Proofs.Sample
import AssignOnce.Proofs.Tree.Search

/-!
# Which variables are presumed to be assigned once

What it means that a variable is presumed to be assigned once, without the search that decides it:
the variable is local, and some identifier of the file at its position declares it in one of the
forms of `Tree.Introduces`. In a file as a parser and a type checker leave it (`Source.Parsed`) the
search at the position of a variable finds the identifier that declares it
(`Source.declaration?_eq_some_iff`), if the file has one.
-/

namespace AssignOnce

namespace Tree

variable {t : Tree} {params : Bool} {i : Nat}

/-- Whether a node is the list of the parameters or the receiver of a function. -/
def HoldsParameters (t : Tree) (l : Nat) : Prop :=
  t.parentKind? l = some .funcType ∧ t.field l = .params ∨
    (∃ hasBody doc, t.parentKind? l = some (.funcDecl hasBody doc)) ∧ t.field l = .recv

/-- How an identifier introduces a variable that is presumed to be assigned once: as a name of a
variable declaration, on the left side of an assignment, as the key or value of a loop over a range,
or, if asked for, as a name of a parameter or receiver. -/
inductive Introduces (t : Tree) (params : Bool) (i : Nat) : Prop
  | declaration (doc : Option Nat) :
      t.parentKind? i = some (.valueSpec doc) → t.field i = .names → Introduces t params i
  | assignment (op : Operator) (opPos : Int) :
      t.parentKind? i = some (.assignStmt op opPos) → t.field i = .lhs → Introduces t params i
  | key : t.parentKind? i = some .rangeStmt → t.field i = .key → Introduces t params i
  | value : t.parentKind? i = some .rangeStmt → t.field i = .value → Introduces t params i
  | parameter (l : Nat) : params → t.parentKind? i = some .field → t.field i = .names →
      (t.parent? i).bind t.parent? = some l → t.HoldsParameters l → Introduces t params i

theorem isParameterList_iff {l : Nat} : t.isParameterList l ↔ t.HoldsParameters l := by
  unfold isParameterList HoldsParameters
  split
  · simp_all
  · simp_all
  · rename_i hparams hrecv
    refine ⟨nofun, ?_⟩
    rintro (⟨hk, hf⟩ | ⟨⟨hasBody, doc, hk⟩, hf⟩)
    · exact absurd hf (hparams hk)
    · exact absurd hf (hrecv hasBody doc hk)

theorem introduces_iff : t.Introduces params i ↔
    t.declarationForm i = .plain ∨ params ∧ t.declarationForm i = .parameter := by
  constructor
  · intro h
    cases h with
    | declaration doc hk hf => exact .inl (by simp [declarationForm, hk, hf])
    | assignment op opPos hk hf => exact .inl (by simp [declarationForm, hk, hf])
    | key hk hf => exact .inl (by simp [declarationForm, hk, hf])
    | value hk hf => exact .inl (by simp [declarationForm, hk, hf])
    | parameter l hp hk hf hl hlist =>
      refine .inr ⟨hp, ?_⟩
      simp [declarationForm, hk, hf, hl, isParameterList_iff.2 hlist]
  · intro h
    unfold declarationForm at h
    split at h
    · exact .declaration _ ‹_› ‹_›
    · exact .assignment _ _ ‹_› ‹_›
    · exact .key ‹_› ‹_›
    · exact .value ‹_› ‹_›
    · rename_i hk hf
      cases hl : (t.parent? i).bind t.parent? with
      | none => simp [hl] at h
      | some l =>
        simp only [hl, Option.any_some] at h
        split at h
        · rename_i hlist
          simp only [reduceCtorEq, and_true, false_or] at h
          exact .parameter l h hk hf hl (isParameterList_iff.1 hlist)
        · simp at h
    · simp at h

end Tree

namespace Source

/-- A file as a parser and a type checker leave it: the nodes are in order, an identifier takes up
its name in the text of the file, and what it declares has this name. -/
structure Parsed (src : Source) : Prop extends src.tree.Ordered, src.tree.AtomicNames where
  root : (src.tree.kind 0).isFile
  base_pos : 0 < src.file.base
  inFile : ∀ i < src.tree.size, (src.tree.kind i).isIdent →
    src.file.bounds.start ≤ src.tree.start i ∧ src.tree.stop i ≤ src.file.bounds.stop
  spelled : ∀ i < src.tree.size, ∀ name ∈ (src.tree.kind i).identName?,
    src.tree.stop i = src.tree.start i + name.utf8ByteSize
  declared : ∀ i < src.tree.size, ∀ o ∈ (src.tree.kind i).declares.object?,
    (src.tree.kind i).identName? = some (src.nameOf o)

instance (src : Source) : Decidable src.Parsed :=
  decidable_of_iff (src.tree.Ordered ∧ src.tree.AtomicNames ∧ _ ∧ _ ∧ _ ∧ _ ∧ _)
    ⟨fun ⟨ordered, names, root, base_pos, inFile, spelled, declared⟩ =>
      ⟨ordered, names, root, base_pos, inFile, spelled, declared⟩,
      fun h => ⟨h.toOrdered, h.toAtomicNames, h.root, h.base_pos, h.inFile, h.spelled, h.declared⟩⟩

variable {src : Source}

theorem isIdent_of_declares {k : Kind} {o : Nat} (h : k.declares = .object o) : k.isIdent := by
  cases k <;> first | rfl | cases h

/-- The declaration of a variable is the identifier at its position that declares it. -/
theorem declaration?_eq_some_iff (h : src.Parsed) {o i : Nat} {v : Variable}
    (hv : src.package.asVariable? o = some v) : src.declaration? o = some i ↔
      src.tree.start i = v.pos ∧ (src.tree.kind i).declares = .object o := by
  have spanOf : (src.tree.kind i).declares = .object o → (src.tree.kind i).isIdent ∧
      src.tree.stop i = src.tree.start i + (src.nameOf o).utf8ByteSize := by
    intro hdeclares
    have hident := isIdent_of_declares hdeclares
    have hsize := Tree.lt_size_of_isIdent hident
    have hname := h.declared i hsize o (by simp [hdeclares, Declares.object?])
    exact ⟨hident, h.spelled i hsize _ hname⟩
  unfold declaration?
  rw [hv]
  dsimp only
  constructor
  · intro hi
    split at hi
    · rename_i i' hfound
      split at hi
      · rename_i hdeclares
        obtain rfl : i' = i := Option.some.inj hi
        obtain ⟨hident, hstop⟩ := spanOf hdeclares
        obtain ⟨-, hstart, hstop'⟩ := Tree.around_of_innermostAt? hfound
        have hroot : i' ≠ 0 := by
          rintro rfl
          have hfile := h.root
          cases hk : src.tree.kind 0 <;> simp_all [Kind.isFile, Kind.isIdent, Kind.identName?]
        rw [Tree.spanIn, if_neg hroot] at hstart hstop'
        change src.tree.start i' ≤ v.pos at hstart
        change v.pos + _ ≤ src.tree.stop i' at hstop'
        exact ⟨by omega, hdeclares⟩
      · cases hi
    · cases hi
  · rintro ⟨hstart, hdeclares⟩
    obtain ⟨hident, hstop⟩ := spanOf hdeclares
    have hspan : (⟨v.pos, v.pos + (src.nameOf o).utf8ByteSize⟩ : Span) = src.tree.span i := by
      rw [← hstart, ← hstop]
      rfl
    rw [hspan, h.innermostAt?_span hident
      (h.inFile i (Tree.lt_size_of_isIdent hident) hident) h.toAtomicNames]
    exact if_pos hdeclares

theorem presumed_iff_declaration? {params : Bool} {o : Nat} : src.presumed params o ↔
    ∃ v ∈ src.package.asVariable? o, v.isLocal ∧ v.pos ≠ 0 ∧
      ∃ i, src.declaration? o = some i ∧ src.tree.Introduces params i := by
  unfold presumed
  cases src.package.asVariable? o with
  | none => simp
  | some v =>
    cases src.declaration? o with
    | none => simp
    | some i =>
      simp only [Tree.introduces_iff, Option.mem_some_iff, exists_eq_left', Option.some.injEq,
        Bool.and_eq_true, bne_iff_ne, and_assoc]
      cases src.tree.declarationForm i <;> simp

/-- A variable is presumed to be assigned once if it is local and introduced in the file. -/
theorem presumed_iff (h : src.Parsed) {params : Bool} {o : Nat} : src.presumed params o ↔
    ∃ v ∈ src.package.asVariable? o, v.isLocal ∧ ∃ i, src.tree.start i = v.pos ∧
      (src.tree.kind i).declares = .object o ∧ src.tree.Introduces params i := by
  rw [presumed_iff_declaration?]
  refine exists_congr fun v => and_congr_right fun hv => and_congr_right fun _ => ?_
  constructor
  · rintro ⟨-, i, hi, hin⟩
    obtain ⟨hstart, hdeclares⟩ := (declaration?_eq_some_iff h hv).1 hi
    exact ⟨i, hstart, hdeclares, hin⟩
  · rintro ⟨i, hstart, hdeclares, hin⟩
    refine ⟨?_, i, (declaration?_eq_some_iff h hv).2 ⟨hstart, hdeclares⟩, hin⟩
    -- identifiers lie in the file, which starts behind the position that is none
    have hident := isIdent_of_declares hdeclares
    have hfile : src.file.base ≤ src.tree.start i :=
      (h.inFile i (Tree.lt_size_of_isIdent hident) hident).1
    have := h.base_pos
    omega

/-- Another identifier does not stand where a presumed variable is introduced. -/
theorem introduces_of_presumed (h : src.Parsed) {params : Bool} {o : Nat} {v : Variable}
    (hv : v ∈ src.package.asVariable? o) (hp : src.presumed params o) {i : Nat}
    (hi : (src.tree.kind i).isIdent) (hstart : src.tree.start i = v.pos) :
    (src.tree.kind i).declares = .object o ∧ src.tree.Introduces params i := by
  obtain ⟨v', hv', -, i', hstart', hdeclares, hin⟩ := (presumed_iff h).1 hp
  obtain rfl : v' = v := Option.mem_unique hv' hv
  obtain rfl : i = i' :=
    h.eq_of_start_eq h.toAtomicNames hi (isIdent_of_declares hdeclares) (hstart.trans hstart'.symm)
  exact ⟨hdeclares, hin⟩

/-- The position of a presumed variable lies in the file. -/
theorem contains_of_presumed (h : src.Parsed) {params : Bool} {o : Nat} {v : Variable}
    (hv : v ∈ src.package.asVariable? o) (hp : src.presumed params o) :
    src.file.bounds.contains v.pos := by
  obtain ⟨v', hv', -, i, hstart, hdeclares, -⟩ := (presumed_iff h).1 hp
  obtain rfl : v' = v := Option.mem_unique hv' hv
  have hident := isIdent_of_declares hdeclares
  have hsize := Tree.lt_size_of_isIdent hident
  have := h.inFile i hsize hident
  have := h.nonempty i hsize hident
  simp only [Span.contains, Bool.and_eq_true, decide_eq_true_iff]
  omega

theorem isLocal_iff {v : Variable} : v.isLocal ↔
    v.isField = false ∧ v.inPackage ∧ v.home ≠ .nowhere ∧ v.home ≠ .package := by
  simp [Variable.isLocal, and_assoc]

/-- Whatever a classifier has been asked before, it presumes that a variable is assigned once exactly
if the variable is no field, belongs to a package and to a scope other than that of the package, and
an identifier at its position declares it in one of the forms above. So results, the symbols of type
switches, which no identifier declares, and variables of other files are not presumed. -/
theorem presumed_iff_introduced (h : src.Parsed) (params : Bool)
    (questions : List Classifier.Question) (o : Nat) :
    let presumed := (((Classifier.ofSource src params).afterAll questions).presumed o).1
    (presumed ↔ ∃ v ∈ src.package.asVariable? o,
      v.isField = false ∧ v.inPackage ∧ v.home ≠ .nowhere ∧ v.home ≠ .package ∧
        ∃ i, src.tree.start i = v.pos ∧ (src.tree.kind i).declares = .object o ∧
          src.tree.Introduces params i) ∧
    ∀ v ∈ src.package.asVariable? o,
      (∀ i l, src.tree.start i = v.pos → (src.tree.kind i).isIdent →
        src.tree.parentKind? i = some .field → (src.tree.parent? i).bind src.tree.parent? = some l →
        ¬ src.tree.HoldsParameters l → presumed = false) ∧
      (∀ i, src.tree.start i = v.pos → (src.tree.kind i).isIdent →
        (src.tree.kind i).declares = .noObject → presumed = false) ∧
      (¬ src.file.bounds.contains v.pos → presumed = false) := by
  dsimp only
  rw [((Classifier.classifies_afterAll src params questions).presumed o).1, presumed_iff h]
  refine ⟨by simp only [isLocal_iff, and_assoc], fun v hv => ⟨?_, ?_, ?_⟩⟩
  · intro i l hstart hident hfield hl hnot
    rw [← Bool.not_eq_true]
    intro hp
    cases (introduces_of_presumed h hv hp hident hstart).2 with
    | parameter l' _ _ _ hl' hlist =>
      rw [hl] at hl'
      cases hl'
      exact hnot hlist
    | _ => simp_all
  · intro i hstart hident hnone
    rw [← Bool.not_eq_true]
    intro hp
    have := (introduces_of_presumed h hv hp hident hstart).1
    rw [hnone] at this
    cases this
  · intro hout
    rw [← Bool.not_eq_true]
    exact fun hp => hout (contains_of_presumed h hv hp)

/-- A method with a receiver, a parameter and a result, and a type switch in it:

    // m has a result.
    func (t T) m(a any) (r int) {
      switch b := a.(type) {
      case int:
        r = b
      }
      return
    }
-/
def methodWithSwitch : Source :=
  .ofFile
    (Utf8.encode "package p\n\ntype T int\n\n// m has a result.\n" ++
      Utf8.encode "func (t T) m(a any) (r int) \x7b\n\tswitch b := a.(type) \x7b\n\tcase int:\n" ++
      Utf8.encode "\t\tr = b\n\t\x7d\n\treturn\n\x7d\n")
    [⟨[⟨⟨24, 42⟩, "// m has a result."⟩]⟩]
    #[
      ⟨"T", 1, .other⟩,
      ⟨"t", 1, .variable ⟨49, false, true, .scope 2⟩⟩,
      ⟨"m", 1, .other⟩,
      ⟨"a", 1, .variable ⟨56, false, true, .scope 2⟩⟩,
      ⟨"r", 1, .variable ⟨64, false, true, .scope 2⟩⟩,
      ⟨"b", 1, .variable ⟨81, false, true, .scope 4⟩⟩,
      ⟨"int", 1, .other⟩,
      ⟨"any", 1, .other⟩]
    #[
      ⟨.predeclared, ⟨0, 0⟩, ["T"]⟩,
      ⟨.scope 0, ⟨1, 129⟩, []⟩,
      ⟨.scope 1, ⟨43, 128⟩, ["t", "a", "r"]⟩,
      ⟨.scope 2, ⟨74, 118⟩, []⟩,
      ⟨.scope 3, ⟨98, 115⟩, ["b"]⟩]
    #[
      ⟨.file none, none, .other, ⟨1, 128⟩, none⟩,
      ⟨.ident "p" .noObject none, some 0, .name, ⟨9, 10⟩, none⟩,
      ⟨.genDecl false none, some 0, .decls, ⟨12, 22⟩, none⟩,
      ⟨.typeSpec, some 2, .specs, ⟨17, 22⟩, none⟩,
      ⟨.ident "T" (.object 0) none, some 3, .name, ⟨17, 18⟩, none⟩,
      ⟨.ident "int" .nothing (some 6), some 3, .type, ⟨19, 22⟩, none⟩,
      ⟨.funcDecl true (some 0), some 0, .decls, ⟨43, 128⟩, none⟩,
      ⟨.commentGroup, some 6, .other, ⟨24, 42⟩, none⟩,
      ⟨.comment, some 7, .list, ⟨24, 42⟩, none⟩,
      ⟨.fieldList, some 6, .recv, ⟨48, 53⟩, none⟩,
      ⟨.field, some 9, .list, ⟨49, 52⟩, none⟩,
      ⟨.ident "t" (.object 1) none, some 10, .names, ⟨49, 50⟩, none⟩,
      ⟨.ident "T" .nothing (some 0), some 10, .type, ⟨51, 52⟩, none⟩,
      ⟨.ident "m" (.object 2) none, some 6, .name, ⟨54, 55⟩, none⟩,
      ⟨.funcType, some 6, .type, ⟨43, 70⟩, none⟩,
      ⟨.fieldList, some 14, .params, ⟨55, 62⟩, none⟩,
      ⟨.field, some 15, .list, ⟨56, 61⟩, none⟩,
      ⟨.ident "a" (.object 3) none, some 16, .names, ⟨56, 57⟩, none⟩,
      ⟨.ident "any" .nothing (some 7), some 16, .type, ⟨58, 61⟩, none⟩,
      ⟨.fieldList, some 14, .other, ⟨63, 70⟩, none⟩,
      ⟨.field, some 19, .list, ⟨64, 69⟩, none⟩,
      ⟨.ident "r" (.object 4) none, some 20, .names, ⟨64, 65⟩, none⟩,
      ⟨.ident "int" .nothing (some 6), some 20, .type, ⟨66, 69⟩, none⟩,
      ⟨.blockStmt 71, some 6, .body, ⟨71, 128⟩, none⟩,
      ⟨.typeSwitchStmt, some 23, .list, ⟨74, 118⟩, none⟩,
      ⟨.assignStmt .define 83, some 24, .other, ⟨81, 94⟩, none⟩,
      ⟨.ident "b" .noObject none, some 25, .lhs, ⟨81, 82⟩, none⟩,
      ⟨.typeAssertExpr, some 25, .rhs, ⟨86, 94⟩, none⟩,
      ⟨.ident "a" .nothing (some 3), some 27, .x, ⟨86, 87⟩, none⟩,
      ⟨.blockStmt 95, some 24, .body, ⟨95, 118⟩, none⟩,
      ⟨.caseClause 106, some 29, .list, ⟨98, 115⟩, none⟩,
      ⟨.ident "int" .nothing (some 6), some 30, .list, ⟨103, 106⟩, none⟩,
      ⟨.assignStmt .assign 112, some 30, .body, ⟨110, 115⟩, none⟩,
      ⟨.ident "r" .nothing (some 4), some 32, .lhs, ⟨110, 111⟩, none⟩,
      ⟨.ident "b" .nothing (some 5), some 32, .rhs, ⟨114, 115⟩, none⟩,
      ⟨.returnStmt, some 23, .list, ⟨120, 126⟩, none⟩]

/-- After a verdict about the write, the receiver is presumed to be assigned once, the result and the
symbol of the switch are not. -/
theorem presumed_iff_introduced_methodWithSwitch :
    let c := (Classifier.ofSource methodWithSwitch true).afterAll [.verdict false 4 33, .presumed 5]
    methodWithSwitch.Parsed ∧ (c.presumed 1).1 ∧ (c.presumed 4).1 = false ∧
      (c.presumed 5).1 = false := by
  have h : methodWithSwitch.Parsed := by decide +kernel
  have presumed := presumed_iff_introduced h true [.verdict false 4 33, .presumed 5]
  refine ⟨h, (presumed 1).1.2 ⟨_, rfl, rfl, rfl, nofun, nofun, 11, rfl, rfl, ?_⟩, ?_, ?_⟩
  · exact .parameter 9 rfl (by decide +kernel) rfl (by decide +kernel)
      (.inr ⟨⟨true, some 0, by decide +kernel⟩, rfl⟩)
  · refine ((presumed 4).2 _ rfl).1 21 19 rfl rfl (by decide +kernel) (by decide +kernel) ?_
    rintro (⟨-, hf⟩ | ⟨-, hf⟩) <;> cases hf
  · exact ((presumed 5).2 _ rfl).2.1 26 rfl rfl rfl

end Source

end AssignOnce
