import AssignOnce.Directive.Basic
import Mathlib.Data.List.Basic

/-!
# Directives are read back as written

A directive that is written for names of variables is read as a directive with exactly these names
(`Permission.exists_parse?_format`): no character of a name ends a word, opens a string or begins an
explanation.
-/

namespace AssignOnce

/-! ## Characters of names -/

/-- The characters that have a meaning between the names of a directive. -/
def directiveMarks : List Char :=
  [',', ' ', '\t', '\n', '\r', Char.ofNat 12, '/', Literal.doubleQuote, Literal.backQuote]

theorem continuesIdentifier_of_mark {c : Char} (hc : c ∈ directiveMarks) :
    continuesIdentifier c = false := by
  have hall : directiveMarks.all (!continuesIdentifier ·) := by decide +kernel
  simpa using List.all_eq_true.1 hall c hc

/-- The characters of a name, of which there is at least one. -/
theorem toList_of_namesVariable {name : String} (h : namesVariable name) :
    name.toList ≠ [] ∧ ∀ c ∈ name.toList, continuesIdentifier c := by
  unfold namesVariable isIdentifier at h
  cases hn : name.toList with
  | nil => simp [hn] at h
  | cons c rest =>
    simp only [hn, Bool.and_eq_true, List.all_eq_true] at h
    obtain ⟨⟨⟨hc, hrest⟩, -⟩, -⟩ := h
    refine ⟨List.cons_ne_nil c rest, ?_⟩
    intro d hd
    rcases List.mem_cons.1 hd with rfl | hd
    · simp [continuesIdentifier, hc]
    · exact hrest d hd

section Characters

variable {c : Char} (h : continuesIdentifier c)
include h

theorem ne_of_mark {d : Char} (hd : d ∈ directiveMarks) : c ≠ d := by
  rintro rfl
  rw [continuesIdentifier_of_mark hd] at h
  cases h

theorem isBlank_of_continuesIdentifier : Lexeme.isBlank c = false := by
  rw [Bool.eq_false_iff]
  intro hb
  have hmark : c ∈ directiveMarks := by
    simp only [Lexeme.isBlank, Bool.or_eq_true, beq_iff_eq] at hb
    rcases hb with (((rfl | rfl) | rfl) | rfl) | rfl <;> decide
  exact ne_of_mark h hmark rfl

theorem separates_of_continuesIdentifier : Lexeme.separates c = false := by
  have hcomma : c ≠ ',' := ne_of_mark h (by decide)
  simp [Lexeme.separates, isBlank_of_continuesIdentifier h, hcomma]

theorem close?_of_continuesIdentifier (rest : List Char) : Lexeme.close? c rest = none := by
  have hdouble : c ≠ Literal.doubleQuote := ne_of_mark h (by decide)
  have hback : c ≠ Literal.backQuote := ne_of_mark h (by decide)
  rw [Lexeme.close?, if_neg hdouble, if_neg hback]

end Characters

/-! ## Lexemes of a directive -/

namespace Lexeme

/-- Whether a text does not begin with a character that goes on a word. -/
def EndsWord (rest : List Char) : Prop :=
  ∀ c ∈ rest.head?, separates c

theorem takeWhile_word {word rest : List Char} (hw : ∀ c ∈ word, continuesIdentifier c)
    (hr : EndsWord rest) :
    (word ++ rest).takeWhile (!separates ·) = word ∧
      (word ++ rest).dropWhile (!separates ·) = rest := by
  have hword : ∀ c ∈ word, !separates c := by
    intro c hc
    rw [separates_of_continuesIdentifier (hw c hc)]
    rfl
  rw [List.takeWhile_append_of_pos hword, List.dropWhile_append_of_pos hword]
  cases rest with
  | nil => simp
  | cons c rest => simp [hr c rfl]

/-- A name in front of a separator is scanned as a word. -/
theorem scan_word {word : List Char} (hne : word ≠ [])
    (hw : ∀ c ∈ word, continuesIdentifier c) {rest : List Char} (hr : EndsWord rest) :
    scan (word ++ rest) = .word word :: scan rest := by
  cases word with
  | nil => exact absurd rfl hne
  | cons c cs =>
    have hc := hw c List.mem_cons_self
    have hcomma : c ≠ ',' := ne_of_mark hc (by decide)
    obtain ⟨htake, hdrop⟩ :=
      takeWhile_word (fun d hd => hw d (List.mem_cons_of_mem c hd)) hr
    have hnext : next c (cs ++ rest) = (.word (c :: cs), rest) := by
      simp only [next, close?_of_continuesIdentifier hc, if_neg hcomma,
        isBlank_of_continuesIdentifier hc, Bool.false_eq_true, if_false, htake, hdrop]
    rw [List.cons_append, scan, hnext]

/-- A blank in front of a text that does not begin with one is scanned as a separator. -/
theorem scan_blank {rest : List Char} (hr : ∀ c ∈ rest.head?, isBlank c = false) :
    scan (' ' :: rest) = .separator [' '] :: scan rest := by
  have htake : rest.takeWhile isBlank = [] ∧ rest.dropWhile isBlank = rest := by
    cases rest with
    | nil => simp
    | cons c rest => simp [hr c rfl]
  have hclose : close? ' ' rest = none := rfl
  have hblank : isBlank ' ' := by decide
  have hnext : next ' ' rest = (.separator [' '], rest) := by
    simp only [next, hclose, hblank, htake.1, htake.2, if_true]
    rfl
  rw [scan, hnext]

theorem scan_comma (rest : List Char) : scan (',' :: rest) = .separator [','] :: scan rest := by
  rw [scan]
  rfl

end Lexeme

/-! ## The round trip -/

namespace Permission

/-- Names as they stand in a directive. -/
def joined (names : List String) : List Char :=
  [',', ' '].intercalate (names.map String.toList)

variable {names : List String}

theorem joined_cons_cons (x y : String) (rest : List String) :
    joined (x :: y :: rest) = x.toList ++ (',' :: ' ' :: joined (y :: rest)) := by
  simp [joined, List.intercalate_cons_cons]

/-- What is written of names begins with a character of the first name. -/
theorem head?_joined (hn : ∀ n ∈ names, namesVariable n) :
    ∀ c ∈ (joined names).head?, continuesIdentifier c := by
  intro c hc
  cases names with
  | nil => simp [joined] at hc
  | cons x rest =>
    obtain ⟨hne, hx⟩ := toList_of_namesVariable (hn x List.mem_cons_self)
    obtain ⟨d, ds, hd⟩ := List.exists_cons_of_ne_nil hne
    have hfront : (joined (x :: rest)).head? = some d := by
      cases rest with
      | nil => simp [joined, hd]
      | cons y rest => simp [joined_cons_cons, hd]
    rw [hfront] at hc
    obtain rfl : d = c := Option.some.inj hc
    exact hx d (by rw [hd]; exact List.mem_cons_self)

theorem scan_blank_joined (hn : ∀ n ∈ names, namesVariable n) :
    Lexeme.scan (' ' :: joined names) = .separator [' '] :: Lexeme.scan (joined names) :=
  Lexeme.scan_blank fun c hc => isBlank_of_continuesIdentifier (head?_joined hn c hc)

/-- The entries of names are the names, all of them valid. -/
theorem entriesFrom_joined (hn : ∀ n ∈ names, namesVariable n) (p : Int) :
    (entriesFrom p (Lexeme.scan (joined names))).map (fun e => (e.name, e.valid)) =
      names.map fun n => (n, true) := by
  induction names generalizing p with
  | nil => simp [joined, Lexeme.scan, entriesFrom]
  | cons x rest ih =>
    have hx := hn x List.mem_cons_self
    have hrest : ∀ n ∈ rest, namesVariable n := fun n h => hn n (List.mem_cons_of_mem x h)
    obtain ⟨hne, hchars⟩ := toList_of_namesVariable hx
    cases rest with
    | nil =>
      have hend : Lexeme.EndsWord [] := by simp [Lexeme.EndsWord]
      have hscan := Lexeme.scan_word hne hchars hend
      have hjoined : joined [x] = x.toList ++ [] := by simp [joined]
      rw [hjoined, hscan]
      simp [Lexeme.scan, entriesFrom, nameOf, hx]
    | cons y rest =>
      have hend : Lexeme.EndsWord (',' :: ' ' :: joined (y :: rest)) := by
        simp [Lexeme.EndsWord, Lexeme.separates]
      rw [joined_cons_cons, Lexeme.scan_word hne hchars hend, Lexeme.scan_comma,
        scan_blank_joined hrest]
      simp [entriesFrom, nameOf, hx, ih hrest]

/-- Only commas and blanks stand between names. -/
theorem notMem_joined (hn : ∀ n ∈ names, namesVariable n) {c : Char} (hc : c ∈ directiveMarks)
    (hcomma : c ≠ ',') (hblank : c ≠ ' ') : c ∉ joined names := by
  induction names with
  | nil => simp [joined]
  | cons x rest ih =>
    have hrest : ∀ n ∈ rest, namesVariable n := fun n h => hn n (List.mem_cons_of_mem x h)
    obtain ⟨-, hchars⟩ := toList_of_namesVariable (hn x List.mem_cons_self)
    have hx : c ∉ x.toList := fun h => ne_of_mark (hchars c h) hc rfl
    cases rest with
    | nil => simpa [joined] using hx
    | cons y rest =>
      have hrest := ih hrest
      simp [joined_cons_cons, hx, hrest, hcomma, hblank]

theorem withoutExplanation_eq {cs : List Char} (h : '/' ∉ cs) : withoutExplanation cs = cs := by
  induction cs with
  | nil => rfl
  | cons c cs ih =>
    have hc : c ≠ '/' := fun e => h (e ▸ List.mem_cons_self)
    rw [withoutExplanation, if_neg (fun e => hc e.1), ih fun e => h (List.mem_cons_of_mem c e)]

theorem toList_format (names : List String) :
    (format names).toList = marker.toList ++ ' ' :: joined names := by
  simp [format, joined, String.toList_intercalate]

/-- A directive is a single line. -/
theorem newline_notMem_format (hn : ∀ n ∈ names, namesVariable n) :
    '\n' ∉ (format names).toList := by
  have hmarker : '\n' ∉ marker.toList := by decide +kernel
  have hjoined := notMem_joined hn (show '\n' ∈ directiveMarks by decide) (by decide) (by decide)
  simp [toList_format, hmarker, hjoined]

theorem arguments?_format (names : List String) :
    arguments? (format names) = some (' ' :: joined names) := by
  unfold arguments?
  rw [toList_format, List.drop_left, if_pos (List.isPrefixOf_iff_prefix.2 ⟨_, rfl⟩)]
  simp

/-- A directive that is written for names of variables is read with all its entries valid, and with
just these names. -/
theorem exists_parse?_format (hn : ∀ n ∈ names, namesVariable n) {c : Comment}
    (hc : c.text = format names) :
    ∃ p, parse? c = some p ∧ (∀ e ∈ p.entries, e.valid) ∧ p.names = names := by
  have hslash : '/' ∉ ' ' :: joined names := by
    simp [notMem_joined hn (show '/' ∈ directiveMarks by decide)]
  have hparse : parse? c = some ⟨c.span, entriesFrom
      (c.span.start + Utf8.width marker.toList + 1) (Lexeme.scan (joined names))⟩ := by
    unfold parse?
    rw [hc, arguments?_format, Option.map_some, withoutExplanation_eq hslash, scan_blank_joined hn]
    rfl
  have hentries := entriesFrom_joined hn (c.span.start + Utf8.width marker.toList + 1)
  have hvalid : ∀ e ∈ entriesFrom (c.span.start + Utf8.width marker.toList + 1)
      (Lexeme.scan (joined names)), e.valid := by
    intro e he
    have hmem : (e.name, e.valid) ∈ names.map fun n => (n, true) := by
      rw [← hentries]
      exact List.mem_map.2 ⟨e, he, rfl⟩
    obtain ⟨n, -, heq⟩ := List.mem_map.1 hmem
    exact (congrArg Prod.snd heq).symm
  refine ⟨_, hparse, hvalid, ?_⟩
  show ((entriesFrom _ _).filter (·.valid)).map (·.name) = names
  rw [List.filter_eq_self.2 hvalid]
  have hnames := congrArg (List.map Prod.fst) hentries
  simpa [List.map_map, Function.comp_def] using hnames

end Permission

end AssignOnce
