import AssignOnce.Fix.TypeSpelling
import AssignOnce.Proofs.Sample
import Mathlib.Data.List.Basic

/-!
# When a type can be spelled

The spelling of a type names packages, each by the last import that gives it a name
(`Import.LastNames`). A type is made of other types, which lie some steps away from it
(`TypeTable.Leads`), also of itself if it is recursive. Looking at most 33 types deep finds out
whether all types that it leads to can be named and none lies more than 32 steps away
(`Source.accessible_iff`), and that decides whether the type can be spelled:

* `Source.spells_iff_accessible`: when a type is spelled, and what its spelling is.
-/

namespace AssignOnce

/-! ## Imports -/

namespace Import

variable {i : Import} {path name : String}

/-- By which name an import refers to the package with a path: by none for a blank import or one
whose path cannot be read, nor if the package of an import without a name was not found. -/
inductive Names (i : Import) : (path name : String) → Prop
  /-- An import without a name of its own takes that of the package. -/
  | unnamed {path name : String} : Literal.value? i.literal = some path → i.name = none →
      i.packageName = some name → i.Names path name
  /-- What a dot import declares stands in the file without a name in front. -/
  | dot {path : String} : Literal.value? i.literal = some path → i.name = some "." →
      i.Names path ""
  | named {path name : String} : Literal.value? i.literal = some path → i.name = some name →
      name ≠ "_" → name ≠ "." → i.Names path name

theorem usable?_eq_some_iff : i.usable? = some (path, name) ↔ i.Names path name := by
  constructor
  · intro h
    unfold usable? at h
    split at h
    · cases h
    · rename_i p hp
      split at h
      · rename_i hn
        obtain ⟨m, hm, hpair⟩ := Option.map_eq_some_iff.1 h
        cases hpair
        exact .unnamed hp hn hm
      · rename_i m hn
        split at h
        · cases h
        · rename_i hblank
          split at h
          · rename_i hdot
            cases h
            exact .dot hp (hdot ▸ hn)
          · rename_i hdot
            cases h
            exact .named hp hn hblank hdot
  · intro h
    cases h with
    | unnamed hp hn hm => simp [usable?, hp, hn, hm]
    | dot hp hn => simp [usable?, hp, hn]
    | named hp hn hblank hdot => simp [usable?, hp, hn, hblank, hdot]

/-- The name that the last import of a path gives to its package, among those that give one. -/
def LastNames (imports : List Import) (path name : String) : Prop :=
  ∃ front i back, imports = front ++ i :: back ∧ i.Names path name ∧
    ∀ j ∈ back, ∀ other, ¬ j.Names path other

/-- An import among those behind the last one of a path gives no name to its package. -/
theorem not_names_of_filterMap {imports : List Import} {pairs : List (String × String)}
    (h : imports.filterMap usable? = pairs) (hne : ∀ p ∈ pairs, path ≠ p.1) {j : Import}
    (hj : j ∈ imports) (other : String) : ¬ j.Names path other := fun hnames => by
  have hmem : (path, other) ∈ pairs := by
    rw [← h]
    exact List.mem_filterMap.2 ⟨j, hj, usable?_eq_some_iff.2 hnames⟩
  exact hne _ hmem rfl

theorem lookup_usable_eq_some_iff {imports : List Import} :
    (imports.filterMap usable?).reverse.lookup path = some name ↔
      LastNames imports path name := by
  rw [List.lookup_eq_some_iff]
  constructor
  · rintro ⟨behind, before, hsplit, hbehind⟩
    rw [List.reverse_eq_iff, List.reverse_append, List.reverse_cons, List.append_assoc,
      List.singleton_append, List.filterMap_eq_append_iff] at hsplit
    obtain ⟨front, rest, rfl, -, hrest⟩ := hsplit
    obtain ⟨skipped, i, back, rfl, -, hi, hback⟩ := List.filterMap_eq_cons_iff.1 hrest
    refine ⟨front ++ skipped, i, back, by rw [List.append_assoc], usable?_eq_some_iff.1 hi,
      fun j hj other => not_names_of_filterMap hback (fun p hp => ?_) hj other⟩
    simpa using hbehind p (List.mem_reverse.1 hp)
  · rintro ⟨front, i, back, rfl, hi, hback⟩
    refine ⟨(back.filterMap usable?).reverse, (front.filterMap usable?).reverse, ?_, ?_⟩
    · rw [List.filterMap_append, List.filterMap_cons_some (usable?_eq_some_iff.2 hi),
        List.reverse_append, List.reverse_cons, List.append_assoc, List.singleton_append]
    · intro p hp
      obtain ⟨j, hj, hp⟩ := List.mem_filterMap.1 (List.mem_reverse.1 hp)
      have hne : path ≠ p.1 := fun e => hback j hj p.2 (usable?_eq_some_iff.1 (e ▸ hp))
      simpa using hne

end Import

/-! ## Parts of types -/

namespace Shape

/-- The types that a type is made of. The parts of an interface, a type parameter or a union are
not looked at, and results of a call are no type of a variable. -/
def components : Shape → List Nat
  | .declared _ _ args => args
  | .composite parts => parts
  | .basic .. | .tuple _ | .closed => []

/-- Whether a type with a shape can be named in a package: it is neither an invalid or untyped
predeclared type nor an unexported type of another package. -/
def CanBeNamed (own : String) : Shape → Prop
  | .basic invalid untyped _ => ¬ invalid ∧ ¬ untyped
  | .declared package exported _ => exported ∨ ∀ p, package = some p → p = own
  | .composite _ | .tuple _ | .closed => True

end Shape

/-- Whether a path of some number of steps leads from a type to a type, each step to one of the
types that a type is made of. -/
inductive TypeTable.Leads (types : TypeTable) : (steps t u : Nat) → Prop
  | here (t : Nat) : types.Leads 0 t t
  | step {steps t u v : Nat} : u ∈ (types.entry t).shape.components → types.Leads steps u v →
      types.Leads (steps + 1) t v

/-- A piece of a spelling, with names for the packages. -/
def Piece.write (names : String → String) : Piece → String
  | .text s => s
  | .package path => Source.qualified (names path)

namespace Source

variable {src : Source} {t : Nat}

/-- Looking at a type is looking at the type itself and then at its parts. -/
theorem accessible_succ (steps t : Nat) : src.accessible (steps + 1) t ↔
    (src.package.types.entry t).shape.CanBeNamed src.package.path ∧
      ∀ u ∈ (src.package.types.entry t).shape.components, src.accessible steps u := by
  rw [accessible]
  cases (src.package.types.entry t).shape with
  | basic invalid untyped fallback => simp [Shape.CanBeNamed, Shape.components]
  | declared package exported args => cases package <;> simp [Shape.CanBeNamed, Shape.components]
  | composite parts => simp [Shape.CanBeNamed, Shape.components]
  | tuple elements => simp [Shape.CanBeNamed, Shape.components]
  | closed => simp [Shape.CanBeNamed, Shape.components]

/-- A type is accessible within a number of types on a path if every type it leads to can be named,
and no path from it has that many steps. -/
theorem accessible_iff (n t : Nat) : src.accessible n t ↔ ∀ steps u,
    src.package.types.Leads steps t u →
      (src.package.types.entry u).shape.CanBeNamed src.package.path ∧ steps < n := by
  induction n generalizing t with
  | zero =>
    simp only [accessible, Bool.false_eq_true, false_iff]
    intro h
    exact absurd (h 0 t (.here t)).2 (Nat.lt_irrefl 0)
  | succ n ih =>
    rw [accessible_succ]
    constructor
    · rintro ⟨hnamed, hparts⟩ steps u hu
      cases hu with
      | here => exact ⟨hnamed, Nat.succ_pos n⟩
      | step hpart hu =>
        obtain ⟨hnamed, hlt⟩ := (ih _).1 (hparts _ hpart) _ u hu
        exact ⟨hnamed, Nat.succ_lt_succ hlt⟩
    · intro h
      refine ⟨(h 0 t (.here t)).1, fun v hv => (ih v).2 fun steps u hu => ?_⟩
      obtain ⟨hnamed, hlt⟩ := h (steps + 1) u (.step hv hu)
      exact ⟨hnamed, Nat.lt_of_succ_lt_succ hlt⟩

/-! ## Packages of a spelling -/

/-- Whether the spelling of a type names the package with a path. -/
def AsksFor (src : Source) (t : Nat) (path : String) : Prop :=
  .package path ∈ (src.package.types.entry t).spelling

instance (t : Nat) (path : String) : Decidable (src.AsksFor t path) :=
  inferInstanceAs (Decidable (_ ∈ _))

/-- By which name a file refers to a package: by none for its own package, else by the name that
the last import of the path gives. -/
def Refers (src : Source) (path name : String) : Prop :=
  path = src.package.path ∧ name = "" ∨
    path ≠ src.package.path ∧ Import.LastNames src.file.imports path name

theorem qualifier?_eq_some_iff {path name : String} :
    src.qualifier? path = some name ↔ src.Refers path name := by
  unfold qualifier? Refers
  by_cases h : path = src.package.path
  · simp [h, eq_comm]
  · simp [h, Import.lookup_usable_eq_some_iff]

/-- The name that is written for a package; nothing if the file has none for it. -/
def nameFor (src : Source) (path : String) : String :=
  (src.qualifier? path).getD ""

theorem nameFor_eq {path name : String} (h : src.Refers path name) : src.nameFor path = name := by
  rw [nameFor, qualifier?_eq_some_iff.2 h, Option.getD_some]

theorem refers_of_nameFor_ne {path : String} (h : src.nameFor path ≠ "") :
    src.Refers path (src.nameFor path) := by
  cases hq : src.qualifier? path with
  | none => exact absurd (by rw [nameFor, hq]; rfl) h
  | some name =>
    have hname := qualifier?_eq_some_iff.1 hq
    rwa [nameFor_eq hname]

theorem spelling_eq (t : Nat) : src.spelling t =
    String.join ((src.package.types.entry t).spelling.map (Piece.write src.nameFor)) := rfl

section

-- Every package has a path, except perhaps the file's own.
variable (hpaths : ∀ path, src.AsksFor t path → path ≠ src.package.path → path ≠ "")
include hpaths

/-- An import is missing exactly if some package of the spelling has no name in the file. -/
theorem missingImport?_eq_none_iff :
    src.missingImport? t = none ↔ ∀ path, src.AsksFor t path → ∃ name, src.Refers path name := by
  have hmem (path : String) :
      path ∈ (src.package.types.entry t).spelling.filterMap src.missingPackage? ↔
        src.AsksFor t path ∧ ¬ ∃ name, src.Refers path name := by
    simp only [List.mem_filterMap, AsksFor, ← qualifier?_eq_some_iff, ← Option.isSome_iff_exists]
    constructor
    · rintro ⟨piece, hpiece, hmissing⟩
      cases piece with
      | text s => cases hmissing
      | package p =>
        simp only [missingPackage?, Option.ite_none_right_eq_some, Option.some.injEq] at hmissing
        obtain ⟨hnone, rfl⟩ := hmissing
        exact ⟨hpiece, by simpa using hnone⟩
    · rintro ⟨hpiece, hnone⟩
      exact ⟨.package path, hpiece, by simpa [missingPackage?] using hnone⟩
  have hnonempty : ∀ path ∈ (src.package.types.entry t).spelling.filterMap src.missingPackage?,
      (path != "") = true := by
    intro path hp
    obtain ⟨hasked, hnone⟩ := (hmem path).1 hp
    refine bne_iff_ne.2 (hpaths path hasked fun hown => hnone ⟨"", .inl ⟨hown, rfl⟩⟩)
  rw [missingImport?]
  constructor
  · intro h path hasked
    by_contra hnone
    have hp := (hmem path).2 ⟨hasked, hnone⟩
    have hlast := List.getLast?_eq_some_getLast (List.ne_nil_of_mem hp)
    rw [hlast, Option.filter_some, hnonempty _ (List.getLast_mem _)] at h
    cases h
  · intro h
    have hnil : (src.package.types.entry t).spelling.filterMap src.missingPackage? = [] :=
      List.eq_nil_iff_forall_not_mem.2 fun path hp =>
        ((hmem path).1 hp).2 (h path ((hmem path).1 hp).1)
    rw [hnil]
    rfl

omit hpaths in
/-- What is written for a type that can be spelled. -/
theorem eq_spelling_of_spellType {s : String} (h : src.spellType t = .ok s) :
    src.missingImport? t = none ∧ src.accessible maxPath t ∧ s = src.spelling t := by
  unfold spellType at h
  split at h
  · cases h
  · rename_i hnone
    split at h
    · rename_i hacc
      cases h
      exact ⟨hnone, hacc, rfl⟩
    · cases h

/-- A type is spelled with the names by which the file refers to the packages. -/
theorem exists_names_of_spellType {s : String} (h : src.spellType t = .ok s) :
    ∃ names : String → String, (∀ path, src.AsksFor t path → src.Refers path (names path)) ∧
      s = String.join ((src.package.types.entry t).spelling.map (Piece.write names)) := by
  obtain ⟨hnone, -, rfl⟩ := eq_spelling_of_spellType h
  refine ⟨src.nameFor, fun path hasked => ?_, spelling_eq t⟩
  obtain ⟨name, hname⟩ := (missingImport?_eq_none_iff hpaths).1 hnone path hasked
  rwa [nameFor_eq hname]

/-- A type can be spelled in a file exactly if the file has a name for each package of the spelling,
and if all types that it is made of, itself included, can be named there and lie at most 32 steps
away. Packages are then written with the names that the last imports of their paths give them. -/
theorem spells_iff_accessible :
    ((∃ s, src.spellType t = .ok s) ↔
      (∀ path, src.AsksFor t path → ∃ name, src.Refers path name) ∧
      ∀ steps u, src.package.types.Leads steps t u →
        (src.package.types.entry u).shape.CanBeNamed src.package.path ∧ steps ≤ 32) ∧
    ∀ s, src.spellType t = .ok s → ∃ names : String → String,
      (∀ path, src.AsksFor t path → src.Refers path (names path)) ∧
      s = String.join ((src.package.types.entry t).spelling.map (Piece.write names)) := by
  have hacc : src.accessible maxPath t ↔ ∀ steps u, src.package.types.Leads steps t u →
      (src.package.types.entry u).shape.CanBeNamed src.package.path ∧ steps ≤ 32 := by
    simp only [accessible_iff, maxPath, Nat.lt_succ_iff]
  refine ⟨?_, fun s hs => exists_names_of_spellType hpaths hs⟩
  rw [← missingImport?_eq_none_iff hpaths, ← hacc]
  constructor
  · rintro ⟨s, hs⟩
    obtain ⟨hnone, hacc, -⟩ := eq_spelling_of_spellType hs
    exact ⟨hnone, hacc⟩
  · rintro ⟨hnone, hacc⟩
    exact ⟨src.spelling t, by rw [spellType, hnone, if_pos hacc]⟩

end

/-- A file that imports one package three times, once with a name and once without effect, and
another one without a name in front. Of its types, 4 is a map from a type of the one package to a
type of the other, and 5 contains itself. -/
def importingFile : Source :=
  let dep := "example.com/dep"
  let odd := "example.com/go-odd"
  let plain : Source := .ofFile [] [] #[] #[] #[]
  { package := { plain.package with
      types := TypeTable.basic ++ #[
        ⟨.declared (some dep) true [], 2, [.package dep, .text "T"], false⟩,
        ⟨.declared (some odd) true [], 3, [.package odd, .text "U"], false⟩,
        ⟨.composite [2, 3], 4, [.text "map[", .package dep, .text "T]", .package odd, .text "U"],
          false⟩,
        ⟨.declared (some plain.package.path) true [5], 5, [.package plain.package.path, .text "R"],
          false⟩] }
    file := { plain.file with
      imports := [⟨"\"example.com/dep\"", none, some "dep"⟩,
        ⟨"\"example.com/dep\"", some "d", some "dep"⟩,
        ⟨"\"example.com/dep\"", some "_", some "dep"⟩,
        ⟨"\"example.com/go-odd\"", some ".", some "odd"⟩] } }

/-- The map is spelled with the name that was given to the import, and the type that contains itself
cannot be spelled, although nothing in it is inaccessible. -/
theorem spells_iff_accessible_importingFile :
    importingFile.spellType 4 = .ok "map[d.T]U" ∧
      (∃ names : String → String, importingFile.Refers "example.com/dep" (names "example.com/dep") ∧
        "map[d.T]U" = String.join
          ((importingFile.package.types.entry 4).spelling.map (Piece.write names))) ∧
      ¬ ∃ s, importingFile.spellType 5 = .ok s := by
  have hpaths (t : Nat) (ht : t < 6) : ∀ path, importingFile.AsksFor t path →
      path ≠ importingFile.package.path → path ≠ "" := by
    have hall : ∀ t < 6, ∀ piece ∈ (importingFile.package.types.entry t).spelling,
        piece ≠ .package "" := by decide +kernel
    intro path hasked _ hempty
    exact hall t ht _ hasked (hempty ▸ rfl)
  have h4 : importingFile.spellType 4 = .ok "map[d.T]U" := by decide +kernel
  obtain ⟨names, hrefers, hs⟩ := (spells_iff_accessible (hpaths 4 (by decide))).2 _ h4
  refine ⟨h4, ⟨names, hrefers _ (by decide +kernel), hs⟩, fun h5 => ?_⟩
  have hall := ((spells_iff_accessible (hpaths 5 (by decide))).1.1 h5).2
  have hloop : ∀ steps, importingFile.package.types.Leads steps 5 5 := by
    intro steps
    induction steps with
    | zero => exact .here 5
    | succ steps ih => exact .step (by decide +kernel) ih
  exact absurd (hall 33 5 (hloop 33)).2 (by decide)

end Source

end AssignOnce
