import AssignOnce.Proofs.Fix.InferredType
import AssignOnce.Proofs.Fix.Redeclaration
import AssignOnce.Proofs.Fix.TypeSpelling

/-!
# What a spelled type means where it is written

A fix that declares a variable with a type writes the names of packages into a function. They are
names of imports, which the scope of the file declares. But the type is spelled for the file, while
it is read at the statement, and a scope in between may declare the same name. The names mean the
imports exactly if no such scope does (`Source.qualifiers_resolve_iff`); the new variable itself is
never in the way, as its name is a fresh one.
-/

namespace AssignOnce

/-- Whether a scope lies on the way from a scope out to that of a file, which is left out. -/
def ScopeForest.LocalTo (f : ScopeForest) (file s b : Nat) : Prop :=
  b ∈ f.chain s ∧ file ∈ f.chain b ∧ b ≠ file

/-- Whether an edit declares a variable with a type: with a value, or on a line of its own. -/
def Edit.Spells (e : Edit) (name type : String) : Prop :=
  e.text = "var " ++ name ++ " " ++ type ++ " = " ∨
    ∃ indent, e.text = "var " ++ name ++ " " ++ type ++ "\n" ++ indent

namespace Source

variable {src : Source} {file o s : Nat} {name : String}

/-! ## Names of packages -/

/-- Whether the scope of a file declares the names that the imports give to packages. -/
def DeclaresImports (src : Source) (file : Nat) : Prop :=
  ∀ i ∈ src.file.imports, ∀ path q, i.Names path q → q ≠ "" →
    src.package.scopes.declares file q

theorem declaresImports_iff : src.DeclaresImports file ↔
    ∀ p ∈ src.file.imports.filterMap Import.usable?, p.2 ≠ "" →
      src.package.scopes.declares file p.2 := by
  constructor
  · intro h p hp
    obtain ⟨i, hi, hp⟩ := List.mem_filterMap.1 hp
    exact h i hi p.1 p.2 (Import.usable?_eq_some_iff.1 hp)
  · intro h i hi path q hq
    exact h (path, q) (List.mem_filterMap.2 ⟨i, hi, Import.usable?_eq_some_iff.2 hq⟩)

instance (file : Nat) : Decidable (src.DeclaresImports file) :=
  decidable_of_iff' _ declaresImports_iff

/-- A name in front of a type is declared in the scope of the file. -/
theorem DeclaresImports.of_refers (h : src.DeclaresImports file) {path q : String}
    (hq : src.Refers path q) (hne : q ≠ "") : src.package.scopes.declares file q := by
  rcases hq with ⟨-, rfl⟩ | ⟨-, front, i, back, himports, hi, -⟩
  · exact absurd rfl hne
  · exact h i (by simp [himports]) path q hi hne

/-- From a scope in which a new variable is declared, a name of the file leads to the file exactly
if no scope on the way there declares it. -/
theorem lookup?_withName_iff (hs : s < src.package.scopes.size)
    (hfile : file ∈ src.package.scopes.chain s) (hname : src.package.scopes.Fresh s name)
    {q : String} (hq : src.package.scopes.declares file q) :
    (src.package.scopes.withName s name).lookup? s q = some (.scope file) ↔
      ∀ b, src.package.scopes.LocalTo file s b → src.package.scopes.declares b q = false := by
  have hleads : ∃ b, src.package.scopes.lookup? s q = some b := by
    have hsome : ((src.package.scopes.chain s).find? (src.package.scopes.declares · q)).isSome :=
      List.find?_isSome.2 ⟨file, hfile, hq⟩
    obtain ⟨d, hd⟩ := Option.isSome_iff_exists.1 hsome
    exact ⟨.scope d, by rw [ScopeForest.lookup?, hd]⟩
  obtain ⟨b, hb⟩ := hleads
  rw [hname.lookup?_withName hs hb, ← hb, ScopeForest.lookup?_eq_scope_iff]
  constructor
  · rintro ⟨-, -, hnone⟩ c ⟨hc, hfc, hne⟩
    exact hnone c hc hfc hne
  · intro hnone
    exact ⟨hfile, hq, fun c hc hfc hne => hnone c ⟨hc, hfc, hne⟩⟩

/-! ## Spelled types -/

/-- The declaration for an assignment turns it into one that infers the type, or spells the type of
the variable at its start. -/
theorem declare_texts {w : Write} {place : Place} {d : Declaration}
    (hk : w.kind = .assign ∨ ∃ k, w.kind = .tuple k) (hd : src.declare w o place name = .ok d) :
    (∀ e ∈ d.edits, e.text = name ∨ e.text = Operator.define.text) ∨
      ∃ type, src.spellType (src.typeOf o) = .ok type ∧
        ∃ e ∈ d.edits, e.start = src.tree.start w.stmt ∧ e.Spells name type := by
  rcases hk with hk | ⟨k, hk⟩ <;> rw [declare, hk] at hd
  · have hedits := (declareAssign_eq_ok hd).2
    split at hedits
    · exact .inl fun e he => by
        simp only [hedits, List.mem_cons, List.not_mem_nil, or_false] at he
        rcases he with rfl | rfl
        · exact .inl rfl
        · exact .inr rfl
    · obtain ⟨type, htype, hedits⟩ := hedits
      exact .inr ⟨type, htype, _, hedits ▸ List.mem_cons_self, rfl, .inl rfl⟩
  · unfold declareTuple at hd
    simp only at hd
    split at hd
    · cases hd
      exact .inl fun e he => .inl (by rw [List.mem_singleton.1 he]; rfl)
    · split at hd
      · cases hd
        exact .inl fun e he => by
          simp only [List.mem_cons, List.not_mem_nil, or_false] at he
          rcases he with rfl | rfl
          · exact .inl rfl
          · exact .inr rfl
      · obtain ⟨type, htype, rfl⟩ := exists_type_of_map_declaredType hd
        exact .inr ⟨type, htype, _, List.mem_cons_self, rfl, .inr ⟨_, rfl⟩⟩

/-- The fix for an assignment either infers the type of the new variable or spells it. If it is
spelled, then every name in front of a type is that of an import of the file, and leads there from
the statement exactly if no scope between the statement and the file declares it. -/
theorem qualifiers_resolve_iff {cancelled : Bool} {n : Namer} {w : Write} {edits : List Edit}
    (hk : w.kind = .assign ∨ ∃ k, w.kind = .tuple k)
    (hfile : src.package.scopes.childAt? 0 (src.tree.start w.stmt) = some file)
    (himports : src.DeclaresImports file) (h : (src.newVariable cancelled n w).1 = .ok edits) :
    ∃ o s name, src.written? w = .ok o ∧
      src.package.scopes.innermostAt? (src.tree.start w.stmt) = some s ∧
      ((∀ e ∈ edits, e.text = name ∨ e.text = Operator.define.text) ∨
        ∃ names : String → String,
          (∃ e ∈ edits, e.start = src.tree.start w.stmt ∧ e.Spells name (String.join
            ((src.package.types.entry (src.typeOf o)).spelling.map (Piece.write names)))) ∧
          (∀ path q, src.Refers path q → names path = q) ∧
          ∀ path, src.AsksFor (src.typeOf o) path → names path ≠ "" →
            Import.LastNames src.file.imports path (names path) ∧
            ((src.package.scopes.withName s name).lookup? s (names path) = some (.scope file) ↔
              ∀ b, src.package.scopes.LocalTo file s b →
                src.package.scopes.declares b (names path) = false)) := by
  obtain ⟨o, place, name, n', d, refs, ho, hplace, hname, hd, hrefs, rfl⟩ := newVariable_eq_ok h
  have hstmt : place.stmt = w.stmt := by
    rcases hk with hk | ⟨k, hk⟩ <;> rw [placeOf, hk] at hplace <;> exact (placeAt_eq_ok hplace).1
  have hscope := hstmt ▸ innermostAt?_of_placeOf hplace
  refine ⟨o, place.scope, name, ho, hscope, ?_⟩
  rcases declare_texts hk hd with hinfers | ⟨type, htype, e, he, hstart, hspells⟩
  · refine .inl fun e he => ?_
    rcases List.mem_append.1 he with he | he
    · exact hinfers e he
    · obtain ⟨rfl, -⟩ := references_eq_ok hrefs
      exact .inl (text_of_mem_renameFor he)
  · obtain ⟨-, -, rfl⟩ := eq_spelling_of_spellType htype
    refine .inr ⟨src.nameFor, ⟨e, List.mem_append_left _ he, hstart, hspells⟩,
      fun path q => nameFor_eq, fun path _ hne => ?_⟩
    have hrefers := refers_of_nameFor_ne hne
    -- the innermost scope lies below that of the file
    have hmem : file ∈ src.package.scopes.chain place.scope := by
      rw [ScopeForest.innermostAt?, hfile, Option.map_some, Option.some.injEq] at hscope
      exact hscope ▸ src.package.scopes.mem_chain_descend _ file
    refine ⟨?_, lookup?_withName_iff (ScopeForest.innermostAt?_spec hscope).2.1 hmem
      (Namer.fresh_of_unique hname) (himports.of_refers hrefers hne)⟩
    exact (hrefers.resolve_left fun hown => hne hown.2).2

/-- Two functions of a file that imports `dep`, which assign to parameters of an imported type. A
parameter of the first one has the name of the import:

    func f(r dep.I, dep int) {
      r = nil
    }

    func g(s dep.I, n int) {
      n, s = 1, nil
    }
-/
def hiddenImport : Source :=
  let dep := "example.com/dep"
  let src : Source := .ofFile
    (Utf8.encode "package p\n\nimport \"example.com/dep\"\n\nfunc f(r dep.I, dep int) \x7b\n" ++
      Utf8.encode "\tr = nil\n\x7d\n\nfunc g(s dep.I, n int) \x7b\n\tn, s = 1, nil\n\x7d\n")
    []
    #[
      ⟨"f", 10, .other⟩,
      ⟨"r", 9, .variable ⟨45, false, true, .scope 2⟩⟩,
      ⟨"dep", 11, .other⟩,
      ⟨"I", 9, .other⟩,
      ⟨"dep", 1, .variable ⟨54, false, true, .scope 2⟩⟩,
      ⟨"int", 1, .other⟩,
      ⟨"nil", 6, .nil⟩,
      ⟨"g", 10, .other⟩,
      ⟨"s", 9, .variable ⟨84, false, true, .scope 3⟩⟩,
      ⟨"n", 1, .variable ⟨93, false, true, .scope 3⟩⟩]
    #[
      ⟨.predeclared, ⟨0, 0⟩, ["f", "g"]⟩,
      ⟨.scope 0, ⟨1, 119⟩, ["dep"]⟩,
      ⟨.scope 1, ⟨38, 75⟩, ["dep", "r"]⟩,
      ⟨.scope 1, ⟨77, 118⟩, ["n", "s"]⟩]
    #[
      ⟨.file none, none, .other, ⟨1, 118⟩, none⟩,
      ⟨.ident "p" .noObject none, some 0, .name, ⟨9, 10⟩, none⟩,
      ⟨.genDecl false none, some 0, .decls, ⟨12, 36⟩, none⟩,
      ⟨.importSpec, some 2, .specs, ⟨19, 36⟩, none⟩,
      ⟨.basicLit .string, some 3, .other, ⟨19, 36⟩, none⟩,
      ⟨.funcDecl true none, some 0, .decls, ⟨38, 75⟩, none⟩,
      ⟨.ident "f" (.object 0) none, some 5, .name, ⟨43, 44⟩, none⟩,
      ⟨.funcType, some 5, .type, ⟨38, 62⟩, none⟩,
      ⟨.fieldList, some 7, .params, ⟨44, 62⟩, none⟩,
      ⟨.field, some 8, .list, ⟨45, 52⟩, none⟩,
      ⟨.ident "r" (.object 1) none, some 9, .names, ⟨45, 46⟩, none⟩,
      ⟨.selectorExpr, some 9, .type, ⟨47, 52⟩, none⟩,
      ⟨.ident "dep" .nothing (some 2), some 11, .x, ⟨47, 50⟩, none⟩,
      ⟨.ident "I" .nothing (some 3), some 11, .sel, ⟨51, 52⟩, none⟩,
      ⟨.field, some 8, .list, ⟨54, 61⟩, none⟩,
      ⟨.ident "dep" (.object 4) none, some 14, .names, ⟨54, 57⟩, none⟩,
      ⟨.ident "int" .nothing (some 5), some 14, .type, ⟨58, 61⟩, none⟩,
      ⟨.blockStmt 63, some 5, .body, ⟨63, 75⟩, none⟩,
      ⟨.assignStmt .assign 68, some 17, .list, ⟨66, 73⟩, none⟩,
      ⟨.ident "r" .nothing (some 1), some 18, .lhs, ⟨66, 67⟩, none⟩,
      ⟨.ident "nil" .nothing (some 6), some 18, .rhs, ⟨70, 73⟩, some 6⟩,
      ⟨.funcDecl true none, some 0, .decls, ⟨77, 118⟩, none⟩,
      ⟨.ident "g" (.object 7) none, some 21, .name, ⟨82, 83⟩, none⟩,
      ⟨.funcType, some 21, .type, ⟨77, 99⟩, none⟩,
      ⟨.fieldList, some 23, .params, ⟨83, 99⟩, none⟩,
      ⟨.field, some 24, .list, ⟨84, 91⟩, none⟩,
      ⟨.ident "s" (.object 8) none, some 25, .names, ⟨84, 85⟩, none⟩,
      ⟨.selectorExpr, some 25, .type, ⟨86, 91⟩, none⟩,
      ⟨.ident "dep" .nothing (some 2), some 27, .x, ⟨86, 89⟩, none⟩,
      ⟨.ident "I" .nothing (some 3), some 27, .sel, ⟨90, 91⟩, none⟩,
      ⟨.field, some 24, .list, ⟨93, 98⟩, none⟩,
      ⟨.ident "n" (.object 9) none, some 30, .names, ⟨93, 94⟩, none⟩,
      ⟨.ident "int" .nothing (some 5), some 30, .type, ⟨95, 98⟩, none⟩,
      ⟨.blockStmt 100, some 21, .body, ⟨100, 118⟩, none⟩,
      ⟨.assignStmt .assign 108, some 33, .list, ⟨103, 116⟩, none⟩,
      ⟨.ident "n" .nothing (some 9), some 34, .lhs, ⟨103, 104⟩, none⟩,
      ⟨.ident "s" .nothing (some 8), some 34, .lhs, ⟨106, 107⟩, none⟩,
      ⟨.basicLit .integer, some 34, .rhs, ⟨110, 111⟩, some 1⟩,
      ⟨.ident "nil" .nothing (some 6), some 34, .rhs, ⟨113, 116⟩, some 6⟩]
  { src with
    package.types := smallIntegers ++ #[
      ⟨.declared (some dep) true [], 9, [.package dep, .text "I"], false⟩,
      ⟨.composite [9, 1], 10, [.text "func(", .package dep, .text "I, int)"], false⟩,
      ⟨.basic true false none, 11, [.text "invalid type"], false⟩]
    file.imports := [⟨"\"example.com/dep\"", none, some "dep"⟩] }

/-- In the second function nothing hides the import, so `dep` in the declaration that is inserted
leads to it. -/
theorem qualifiers_resolve_iff_hiddenImport :
    (hiddenImport.newVariable false (.ofLimit 0) ⟨.tuple 1, 34, 36⟩).1 =
        .ok [.insertion 103 "var s1 dep.I\n\t", .replacement ⟨106, 107⟩ "s1"] ∧
      hiddenImport.DeclaresImports 1 ∧
      ∃ s name, hiddenImport.package.scopes.innermostAt? 103 = some s ∧
        (hiddenImport.package.scopes.withName s name).lookup? s "dep" = some (.scope 1) := by
  have h : (hiddenImport.newVariable false (.ofLimit 0) ⟨.tuple 1, 34, 36⟩).1 =
      .ok [.insertion 103 "var s1 dep.I\n\t", .replacement ⟨106, 107⟩ "s1"] := by decide +kernel
  have himports : hiddenImport.DeclaresImports 1 := by decide +kernel
  have hwritten : hiddenImport.written? ⟨.tuple 1, 34, 36⟩ = .ok 8 := by decide +kernel
  have hscope : hiddenImport.package.scopes.innermostAt? 103 = some 3 := by decide +kernel
  have hchain : hiddenImport.package.scopes.chain 3 = [3, 1, 0] := by decide +kernel
  obtain ⟨o, s, name, ho, hs, hinfers | ⟨names, -, hnames, hall⟩⟩ :=
    qualifiers_resolve_iff (.inr ⟨1, rfl⟩) (by decide +kernel) himports h
  · have hfirst := hinfers _ List.mem_cons_self
    have hsecond := hinfers _ (List.mem_cons_of_mem _ List.mem_cons_self)
    simp only [Edit.insertion, Edit.replacement, Operator.text] at hfirst hsecond
    rcases hfirst with rfl | hfirst
    · exact absurd hsecond (by decide)
    · exact absurd hfirst (by decide)
  · obtain rfl := Except.ok.inj (ho.symm.trans hwritten)
    obtain rfl := Option.some.inj (hs.symm.trans hscope)
    have hdep : names "example.com/dep" = "dep" :=
      hnames _ _ (qualifier?_eq_some_iff.1 (by decide +kernel))
    have hiff := (hall "example.com/dep" (by decide +kernel) (by rw [hdep]; decide)).2
    rw [hdep] at hiff
    refine ⟨h, himports, 3, name, hscope, hiff.2 ?_⟩
    rintro b ⟨hb, hfile, hne⟩
    rw [hchain] at hb
    simp only [List.mem_cons, List.not_mem_nil, or_false] at hb
    rcases hb with rfl | rfl | rfl
    · decide +kernel
    · exact absurd rfl hne
    · exact absurd hfile (by decide +kernel)

/-- In the first function `dep` in the declaration of `r1` is the parameter, which is no package. -/
theorem qualifier_hidden_hiddenImport :
    (hiddenImport.newVariable false (.ofLimit 0) ⟨.assign, 18, 19⟩).1 =
        .ok [.replacement ⟨66, 70⟩ "var r1 dep.I = "] ∧
      hiddenImport.package.scopes.innermostAt? 66 = some 2 ∧
      hiddenImport.package.scopes.LocalTo 1 2 2 ∧
      hiddenImport.package.scopes.declares 2 "dep" ∧
      (hiddenImport.package.scopes.withName 2 "r1").lookup? 2 "dep" = some (.scope 2) := by
  refine ⟨by decide +kernel, by decide +kernel, ?_, by decide +kernel, by decide +kernel⟩
  unfold ScopeForest.LocalTo
  decide +kernel

end Source

end AssignOnce
