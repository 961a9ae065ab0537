import AssignOnce.Proofs.Check.Reported
import Mathlib.Data.List.Forall2

/-!
# Every reported write can be permitted

Whether a new variable can be offered for a write depends on much, and there are many ways in which
it cannot. The other fix is always there: a directive above the innermost function around the write
(`Tree.Innermost`), which exists for every write in the body of a checked function. It depends on
nothing but that function and the name of the variable (`Source.permitFix`), so it is the same for
all writes of one name in one function. Only reports about generated files have no fixes.
-/

namespace AssignOnce

namespace Tree

variable {t : Tree}

/-- Whether a node is the innermost function around another one: all functions around the other one
lie around it, too. -/
structure Innermost (t : Tree) (f i : Nat) : Prop where
  mem : f ∈ t.enclosing i
  isFunction : t.isFunction f
  least : ∀ g ∈ t.enclosing i, t.isFunction g → g ∈ t.enclosing f

theorem innermost_of_function? {f i : Nat} (h : t.function? i = some f) : t.Innermost f i where
  mem := List.mem_of_find?_eq_some h
  isFunction := List.find?_some h
  least _ hg hfunction := t.ascent.mem_of_find? h hg hfunction

theorem Innermost.eq {f g i : Nat} (hf : t.Innermost f i) (hg : t.Innermost g i) : f = g :=
  Nat.le_antisymm (le_of_mem_enclosing (hg.least f hf.mem hf.isFunction))
    (le_of_mem_enclosing (hf.least g hg.mem hg.isFunction))

theorem exists_function? {g i : Nat} (hg : g ∈ t.enclosing i) (hfunction : t.isFunction g) :
    ∃ f, t.function? i = some f :=
  Option.isSome_iff_exists.1 (List.find?_isSome.2 ⟨g, hg, hfunction⟩)

theorem Innermost.function? {f i : Nat} (h : t.Innermost f i) : t.function? i = some f := by
  obtain ⟨g, hg⟩ := exists_function? h.mem h.isFunction
  rw [hg, (innermost_of_function? hg).eq h]

end Tree

namespace Source

variable {src : Source}

/-- The fix that permits a function to reassign variables of a name: a line with a directive is
inserted at the start of the anchor of the function. -/
def permitFix (src : Source) (f : Nat) (name : String) : Fix where
  title := Fix.permitTitle
  edits :=
    [.insertion (src.tree.start (src.tree.anchor f))
      (Permission.format [name] ++ "\n" ++ src.file.indent (src.tree.start (src.tree.anchor f)))]

/-- Whether a diagnostic reports a write and has the fixes that it should have. In a generated file
these are none. Otherwise the last one permits the innermost function around the target to reassign
the variable, and at most one other fix, which declares a new variable, comes before it. -/
def OffersPermit (src : Source) (wo : Write × Nat) (d : Diagnostic) : Prop :=
  d.bare = src.breachReport wo ∧
    if src.file.isGenerated then d.fixes = []
    else ∃ f news, src.tree.Innermost f wo.1.target ∧
      (news = [] ∨ ∃ edits, news = [⟨Fix.newVariableTitle, edits⟩]) ∧
      d.fixes = news ++ [src.permitFix f (src.nameOf wo.2)]

theorem permitFixes_eq {f : Nat} {w : Write} (hf : src.tree.Innermost f w.target) (o : Nat) :
    src.permitFixes false w o = [src.permitFix f (src.nameOf o)] := by
  have hnames (name : String) : sortedNames [name] = [name] := by
    simp [sortedNames]
    rfl
  simp [permitFixes, permit, hf.function?, insertionFor, hnames, permitFix]

/-- Whatever comes of the new variable, the permission is the last fix. -/
theorem fixes_propose {f : Nat} {w : Write} (hf : src.tree.Innermost f w.target) (r : Reporter)
    (o : Nat) : ∃ news, (news = [] ∨ ∃ edits, news = [⟨Fix.newVariableTitle, edits⟩]) ∧
      (src.propose false r w o).1.fixes = news ++ [src.permitFix f (src.nameOf o)] := by
  rw [← permitFixes_eq hf]
  unfold propose
  cases src.newVariable false r.namer w with
  | mk result namer =>
    cases result with
    | ok edits =>
      by_cases haccepted : (r.session.offer edits).1
      · exact ⟨[⟨Fix.newVariableTitle, edits⟩], .inr ⟨edits, rfl⟩, by simp [haccepted]⟩
      · exact ⟨[], .inl rfl, by simp [haccepted]⟩
    | error e => exact ⟨[], .inl rfl, by cases e <;> rfl⟩

/-- One report, with the fixes of the write that it is about. -/
theorem offersPermit_reportWrite {w : Write} (hf : ∃ f, src.tree.Innermost f w.target)
    (r : Reporter) (o : Nat) :
    List.Forall₂ src.OffersPermit
      ([(w, o)].filter fun wo => !src.file.suppressedAt (src.tree.start wo.1.target))
      ((src.reportWrite false (!src.file.isGenerated) r w o).1.filter
        Diagnostic.isReassignment) := by
  have hfailures : (src.propose false r w o).1.failures.filter Diagnostic.isReassignment = [] :=
    List.map_eq_nil_iff.1 (src.reassignments_failures false r w o)
  by_cases hs : src.file.suppressedAt (src.tree.start w.target)
  · have hnone : src.reportWrite false (!src.file.isGenerated) r w o = ([], r) := if_pos hs
    simp [hs, hnone]
  · have hkept : [(w, o)].filter (fun wo => !src.file.suppressedAt (src.tree.start wo.1.target)) =
        [(w, o)] := by simp [hs]
    have hsome : src.reportWrite false (!src.file.isGenerated) r w o = _ := if_neg hs
    rw [hkept, hsome]
    cases hgenerated : src.file.isGenerated with
    | true => exact .cons ⟨rfl, by rw [if_pos hgenerated]; rfl⟩ .nil
    | false =>
      obtain ⟨f, hf⟩ := hf
      obtain ⟨news, hnews, hfixes⟩ := fixes_propose hf r o
      simp only [Bool.not_false, if_true, List.filter_append, hfailures, List.nil_append]
      exact .cons ⟨rfl, by rw [hgenerated]; exact ⟨f, news, hf, hnews, hfixes⟩⟩ .nil

theorem offersPermit_reportWrites {wos : List (Write × Nat)}
    (hf : ∀ wo ∈ wos, ∃ f, src.tree.Innermost f wo.1.target) (r : Reporter) :
    List.Forall₂ src.OffersPermit
      (wos.filter fun wo => !src.file.suppressedAt (src.tree.start wo.1.target))
      ((src.reportWrites false (!src.file.isGenerated) r wos).filter
        Diagnostic.isReassignment) := by
  induction wos generalizing r with
  | nil => exact .nil
  | cons wo wos ih =>
    obtain ⟨w, o⟩ := wo
    rw [reportWrites, List.filter_append, ← List.singleton_append, List.filter_append]
    exact List.rel_append (offersPermit_reportWrite (hf (w, o) List.mem_cons_self) r o)
      (ih (fun wo hwo => hf wo (List.mem_cons_of_mem _ hwo)) _)

/-- Every disallowed write of a checked body lies in a function. -/
theorem exists_innermost_of_mem_disallowedWrites {c : Config} {f b : Nat}
    (hfb : (f, b) ∈ src.checkedBodies c) {policy : Policy} {wo : Write × Nat}
    (hwo : wo ∈ src.disallowedWrites policy b) : ∃ g, src.tree.Innermost g wo.1.target := by
  obtain ⟨hf, hb⟩ := mem_checkedBodies hfb
  obtain ⟨i, -, hw, hbi⟩ := exists_writesAt_of_mem_disallowedWrites hwo
  have hfi : f ∈ src.tree.enclosing i :=
    Tree.mem_enclosing_trans (Tree.parent_mem_enclosing (Tree.parent?_of_body? hb)) hbi
  obtain ⟨g, hg⟩ := Tree.exists_function?
    (Tree.mem_enclosing_trans hfi hw.mem_enclosing_target)
    (src.mem_checkedFunctions.1 hf).2.2.1.isFunction
  exact ⟨g, Tree.innermost_of_function? hg⟩

/-- The reports about the writes of a file, one for each of them, with their fixes. -/
theorem offersPermit_check (c : Config) : List.Forall₂ src.OffersPermit (src.reportedWrites c)
    ((src.check c).filter Diagnostic.isReassignment) := by
  rw [filter_isReassignment_check, reportedWrites]
  split
  · refine List.rel_flatMap (R := fun fb fb' => fb = fb' ∧ fb ∈ src.checkedBodies c)
      (List.forall₂_same.2 fun fb hfb => ⟨rfl, hfb⟩) ?_
    rintro ⟨f, b⟩ - ⟨rfl, hfb⟩
    exact offersPermit_reportWrites (fun wo => exists_innermost_of_mem_disallowedWrites hfb) _
  · exact .nil

/-- The last fix depends on the function and the name only. -/
theorem OffersPermit.getLast?_fixes {wo : Write × Nat} {d : Diagnostic} (h : src.OffersPermit wo d)
    {f : Nat} (hf : src.tree.Innermost f wo.1.target) : d.fixes.getLast? =
      if src.file.isGenerated then none else some (src.permitFix f (src.nameOf wo.2)) := by
  obtain ⟨-, hfixes⟩ := h
  split at hfixes
  · simp [*]
  · obtain ⟨g, news, hg, -, hfixes⟩ := hfixes
    rw [hfixes, hg.eq hf, if_neg ‹_›]
    simp

end Source

namespace Pass

/-- A file of a package, with the content that a check reads. -/
def source (p : Pass) (c : Config) (file : SourceFile) : Source :=
  ⟨p.package, file.withContent (p.content c file)⟩

/-- Every diagnostic about a write offers to permit it. The offers for writes to variables of one
name in one function are the same. -/
theorem every_write_permittable {p : Pass} {c : Config} {reports : List (List Diagnostic)}
    (h : p.check c = .ok reports) {file : SourceFile} {ds : List Diagnostic}
    (hfile : (file, ds) ∈ p.files.zip reports) :
    List.Forall₂ (p.source c file).OffersPermit ((p.source c file).reportedWrites c)
      (ds.filter Diagnostic.isReassignment) ∧
    ∀ wo d wo' d' f,
      (wo, d) ∈ ((p.source c file).reportedWrites c).zip (ds.filter Diagnostic.isReassignment) →
      (wo', d') ∈ ((p.source c file).reportedWrites c).zip (ds.filter Diagnostic.isReassignment) →
      file.tree.Innermost f wo.1.target → file.tree.Innermost f wo'.1.target →
      (p.source c file).nameOf wo.2 = (p.source c file).nameOf wo'.2 →
      d.fixes.getLast? = d'.fixes.getLast? := by
  have hds : ds = (p.source c file).check c := by
    unfold check at h
    split at h
    · cases h
      rw [← List.map_prod_left_eq_zip] at hfile
      obtain ⟨f, -, heq⟩ := List.mem_map.1 hfile
      cases heq
      rfl
    · cases h
  have hall := (p.source c file).offersPermit_check c
  rw [← hds] at hall
  refine ⟨hall, fun wo d wo' d' f hd hd' hf hf' hname => ?_⟩
  rw [(List.forall₂_zip hall hd).getLast?_fixes hf, (List.forall₂_zip hall hd').getLast?_fixes hf',
    hname]

/-- A package with one file, in which the literal of a literal writes a variable twice. -/
def nestedLiterals : Pass :=
  ⟨Source.nestedLiterals.package, [Source.nestedLiterals.file], none, true⟩

/-- With one name to try, there is no new variable for the second write. Both writes are offered the
same permission. -/
theorem every_write_permittable_nestedLiterals :
    let c := (Setting.maxTries 1).apply .initial
    let src := nestedLiterals.source c Source.nestedLiterals.file
    nestedLiterals.check c = .ok [src.check c] ∧
    ∃ d d', (src.check c).filter Diagnostic.isReassignment = [d, d'] ∧
      src.OffersPermit (⟨.assign, 21, 22⟩, 1) d ∧
      src.OffersPermit (⟨.incDec (.arithmetic .add), 24, 25⟩, 1) d' ∧
      d.fixes.map (·.title) = [Fix.newVariableTitle, Fix.permitTitle] ∧
      d'.fixes.map (·.title) = [Fix.permitTitle] ∧ d.fixes.getLast? = d'.fixes.getLast? := by
  intro c src
  have hwrites : src.reportedWrites c =
      [(⟨.assign, 21, 22⟩, 1), (⟨.incDec (.arithmetic .add), 24, 25⟩, 1)] := by decide +kernel
  have htitles : ((src.check c).filter Diagnostic.isReassignment).map (·.fixes.map (·.title)) =
      [[Fix.newVariableTitle, Fix.permitTitle], [Fix.permitTitle]] := by decide +kernel
  have hmem : (Source.nestedLiterals.file, src.check c) ∈
      nestedLiterals.files.zip [src.check c] := List.mem_singleton_self _
  obtain ⟨hoffers, hsame⟩ := every_write_permittable rfl hmem
  generalize (src.check c).filter Diagnostic.isReassignment = ds at hoffers hsame htitles
  rw [hwrites] at hoffers hsame
  cases hoffers with
  | cons hd hrest =>
    cases hrest with
    | cons hd' hnil =>
      cases hnil
      rename_i d d'
      simp only [List.map_cons, List.map_nil, List.cons.injEq, and_true] at htitles
      refine ⟨rfl, d, d', rfl, hd, hd', htitles.1, htitles.2, ?_⟩
      exact hsame _ d _ d' 17 List.mem_cons_self (List.mem_cons_of_mem _ List.mem_cons_self)
        (Tree.innermost_of_function? (by decide +kernel))
        (Tree.innermost_of_function? (by decide +kernel)) rfl

end Pass

end AssignOnce
