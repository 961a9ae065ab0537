import AssignOnce.Proofs.Directive.Lexing
import AssignOnce.Text.Utf8

/-!
# Where the entries of a directive stand

A comment is a directive if it begins with the marker, followed by a blank or by nothing
(`Permission.IsMarked`). What follows up to the first `//` is cut into lexemes, and the entries of
the directive are its arguments: each one has the span of the bytes that spell it, and they follow
each other (`Permission.parse?_entries`).
-/

namespace AssignOnce

namespace Utf8

theorem length_encode_ofList (cs : List Char) : (encode (String.ofList cs)).length = width cs := by
  induction cs with
  | nil => rfl
  | cons c cs ih =>
    simp only [encode, String.toList_ofList, List.flatMap_cons, List.length_append,
      String.length_utf8EncodeChar, width_cons] at ih ⊢
    omega

end Utf8

namespace Comment

/-- The bytes of a comment at a span. -/
def bytesAt (c : Comment) (s : Span) : Bytes :=
  ((Utf8.encode c.text).take (s.stop - c.span.start).toNat).drop (s.start - c.span.start).toNat

/-- Whether an entry stands where the text of an argument stands in a comment. The text is not
empty, and it holds separators only if it is a closed string. -/
structure Holds (c : Comment) (e : Entry) (text : List Char) : Prop where
  start : c.span.start ≤ e.span.start
  start_lt_stop : e.span.start < e.span.stop
  stop : e.span.stop ≤ c.span.start + (Utf8.encode c.text).length
  bytes : c.bytesAt e.span = Utf8.encode (String.ofList text)
  ne_nil : text ≠ []
  string : (∃ d ∈ text, Lexeme.separates d) → Lexeme.IsString text

/-- An argument in a comment, with what stands in front of it and behind it. -/
theorem holds_argument {c : Comment} {front text back : List Char}
    (hc : c.text.toList = front ++ (text ++ back)) (hne : text ≠ [])
    (hstring : (∃ d ∈ text, Lexeme.separates d) → Lexeme.IsString text) (name : String)
    (valid : Bool) :
    c.Holds ⟨name, ⟨c.span.start + Utf8.width front,
      c.span.start + Utf8.width front + Utf8.width text⟩, valid⟩ text := by
  have hfront := Utf8.length_encode_ofList front
  have htext := Utf8.length_encode_ofList text
  have hencode : Utf8.encode c.text = Utf8.encode (String.ofList front) ++
      (Utf8.encode (String.ofList text) ++ Utf8.encode (String.ofList back)) := by
    simp [Utf8.encode, hc]
  have hpos : 0 < Utf8.width text := by
    obtain ⟨d, ds, rfl⟩ := List.exists_cons_of_ne_nil hne
    have := d.utf8Size_pos
    rw [Utf8.width_cons]
    omega
  refine ⟨?_, ?_, ?_, ?_, hne, hstring⟩
  · dsimp only
    omega
  · dsimp only
    omega
  · simp only [hencode, List.length_append]
    omega
  · have hstop : (c.span.start + Utf8.width front + Utf8.width text - c.span.start).toNat =
        (Utf8.encode (String.ofList front)).length +
          (Utf8.encode (String.ofList text)).length := by omega
    have hstart : (c.span.start + Utf8.width front - c.span.start).toNat =
        (Utf8.encode (String.ofList front)).length := by omega
    simp only [bytesAt, hstop, hstart, hencode]
    rw [List.take_length_add_append, List.take_left, List.drop_left]

end Comment

namespace Permission

/-! ## Entries -/

variable {c : Comment} {ls : List Lexeme}

/-- The entries of formed lexemes stand where the arguments among them stand. -/
theorem holds_entriesFrom (hformed : ∀ l ∈ ls, l.Formed) (front : List Char) {back : List Char}
    (hc : c.text.toList = front ++ (ls.flatMap Lexeme.text ++ back)) :
    List.Forall₂ c.Holds (entriesFrom (c.span.start + Utf8.width front) ls)
      (ls.filterMap Lexeme.argument?) := by
  induction ls generalizing front with
  | nil => exact .nil
  | cons l ls ih =>
    obtain ⟨hl, hls⟩ := List.forall_mem_cons.1 hformed
    rw [List.flatMap_cons, List.append_assoc] at hc
    have hrest := ih hls (front ++ l.text) (by rw [hc, List.append_assoc])
    rw [Utf8.width_append, Int.natCast_add, ← Int.add_assoc] at hrest
    cases l with
    | separator t => exact hrest
    | quoted t =>
      have hne : t ≠ [] := by
        rintro rfl
        cases hl
      exact .cons (Comment.holds_argument hc hne (fun _ => hl) _ _) hrest
    | word t =>
      have hstring : (∃ d ∈ t, Lexeme.separates d) → Lexeme.IsString t := by
        rintro ⟨d, hd, hsep⟩
        rw [hl.2 d hd] at hsep
        cases hsep
      exact .cons (Comment.holds_argument hc hl.1 hstring _ _) hrest

theorem le_start_of_mem_entriesFrom {p : Int} {e : Entry} (h : e ∈ entriesFrom p ls) :
    p ≤ e.span.start := by
  induction ls generalizing p with
  | nil => cases h
  | cons l ls ih =>
    have hlater : e ∈ entriesFrom (p + Utf8.width l.text) ls → p ≤ e.span.start := by
      intro he
      have := ih he
      omega
    unfold entriesFrom at h
    dsimp only at h
    split at h
    · rcases List.mem_cons.1 h with rfl | h
      · exact Int.le_refl p
      · exact hlater h
    · exact hlater h

/-- Entries follow each other. -/
theorem pairwise_entriesFrom (p : Int) (ls : List Lexeme) :
    (entriesFrom p ls).Pairwise fun a b => a.span.stop ≤ b.span.start := by
  induction ls generalizing p with
  | nil => exact .nil
  | cons l ls ih =>
    unfold entriesFrom
    dsimp only
    split
    · exact .cons (fun e he => le_start_of_mem_entriesFrom he) (ih _)
    · exact ih _

/-! ## Arguments -/

/-- Whether a comment begins with the marker of a directive, followed by a blank or by nothing. -/
def IsMarked (text : String) : Prop :=
  ∃ rest, text.toList = "//reassignguard:allow".toList ++ rest ∧
    ∀ d ∈ rest.head?, d = ' ' ∨ d = '\t'

theorem arguments?_eq_some_iff {text : String} {args : List Char} :
    arguments? text = some args ↔ text.toList = "//reassignguard:allow".toList ++ args ∧
      ∀ d ∈ args.head?, d = ' ' ∨ d = '\t' := by
  have hmarker : marker.toList = "//reassignguard:allow".toList := by decide
  unfold arguments?
  rw [hmarker]
  constructor
  · intro h
    split at h
    · rename_i hprefix
      obtain ⟨rest, hrest⟩ := List.isPrefixOf_iff_prefix.1 hprefix
      rw [← hrest, List.drop_left] at h
      split at h
      · cases h
        exact ⟨hrest.symm, by simp⟩
      · split at h
        · cases h
          exact ⟨hrest.symm, by simpa⟩
        · cases h
    · cases h
  · rintro ⟨htext, hhead⟩
    rw [htext, List.drop_left, if_pos (List.isPrefixOf_iff_prefix.2 ⟨_, rfl⟩)]
    cases args with
    | nil => rfl
    | cons d rest => simp [hhead d rfl]

/-- Whether a text is cut in front of the first two slashes in it. -/
structure CutAtSlashes (args explanation : List Char) : Prop where
  slashes : explanation = [] ∨ ['/', '/'] <+: explanation
  first {front : List Char} : front ++ ['/', '/'] <+: args ++ explanation →
    args.length ≤ front.length

theorem exists_explanation (cs : List Char) : ∃ explanation,
    withoutExplanation cs ++ explanation = cs ∧
      CutAtSlashes (withoutExplanation cs) explanation := by
  induction cs with
  | nil => exact ⟨[], rfl, .inl rfl, fun _ => Nat.zero_le _⟩
  | cons c rest ih =>
    rw [withoutExplanation]
    split
    · rename_i h
      obtain ⟨tail, rfl⟩ : ∃ tail, rest = '/' :: tail := by
        cases rest with
        | nil => simp at h
        | cons d tail => exact ⟨tail, by simpa using h.2⟩
      exact ⟨_, rfl, .inr ⟨tail, by rw [h.1]; rfl⟩, fun _ => Nat.zero_le _⟩
    · rename_i h
      obtain ⟨explanation, hrest, hcut⟩ := ih
      refine ⟨explanation, by rw [List.cons_append, hrest], hcut.slashes, ?_⟩
      intro front hfront
      rw [List.cons_append, hrest] at hfront
      cases front with
      | nil =>
        obtain ⟨tail, htail⟩ := hfront
        obtain ⟨rfl, rfl⟩ := List.cons.inj htail
        exact absurd ⟨rfl, rfl⟩ h
      | cons d front =>
        have hfront := (List.cons_prefix_cons.1 hfront).2
        rw [← hrest] at hfront
        exact Nat.succ_le_succ (hcut.first hfront)

/-- A comment that does not begin with the marker is no directive. Any other one is: its arguments,
up to the first two slashes behind the marker, are cut into lexemes, and it has an entry for each
argument among them, at the bytes that spell the argument, in the order of the arguments and
without an overlap. -/
theorem parse?_entries (c : Comment) :
    ¬ IsMarked c.text ∧ parse? c = none ∨
      IsMarked c.text ∧ ∃ p args explanation lexemes, parse? c = some p ∧
        c.text.toList = "//reassignguard:allow".toList ++ (args ++ explanation) ∧
        CutAtSlashes args explanation ∧ (∀ ls, Lexeme.Lexes args ls ↔ ls = lexemes) ∧
        lexemes.flatMap Lexeme.text = args ∧ (∀ l ∈ lexemes, l.Formed) ∧
        List.Forall₂ c.Holds p.entries (lexemes.filterMap Lexeme.argument?) ∧
        p.entries.Pairwise fun a b => a.span.stop ≤ b.span.start := by
  cases hargs : arguments? c.text with
  | none =>
    refine .inl ⟨?_, by rw [parse?, hargs]; rfl⟩
    rintro ⟨rest, hrest⟩
    rw [arguments?_eq_some_iff.2 hrest] at hargs
    cases hargs
  | some args =>
    have hmarked := arguments?_eq_some_iff.1 hargs
    obtain ⟨explanation, hcut, hslashes⟩ := exists_explanation args
    have hformed := (Lexeme.lexes_scan (withoutExplanation args)).formed
    have hparse : parse? c = some ⟨c.span, entriesFrom (c.span.start + Utf8.width marker.toList)
        (Lexeme.scan (withoutExplanation args))⟩ := by
      rw [parse?, hargs]
      rfl
    have htext : c.text.toList = marker.toList ++
        ((Lexeme.scan (withoutExplanation args)).flatMap Lexeme.text ++ explanation) := by
      rw [Lexeme.flatMap_text_scan, hcut]
      exact hmarked.1
    refine .inr ⟨⟨args, hmarked⟩, _, withoutExplanation args, explanation, _, hparse, ?_, hslashes,
      fun ls => Lexeme.lexes_iff, Lexeme.flatMap_text_scan _, hformed,
      holds_entriesFrom hformed marker.toList htext, pairwise_entriesFrom _ _⟩
    rw [hcut]
    exact hmarked.1

end Permission

end AssignOnce
