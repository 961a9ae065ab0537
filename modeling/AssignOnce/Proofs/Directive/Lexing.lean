import AssignOnce.Directive.Basic
import Mathlib.Data.List.Forall2
import Mathlib.Data.List.TakeWhile

/-!
# How the arguments of a directive are cut

The lexer is given by four rules that are tried in order at each place of a text: a closed string, a
comma, a run of white space, a word. A rule takes the longest front of what is left that it accepts
(`Lexeme.Rule.Takes`). Some rule fits at every place, so that every text is cut, and in one way only
(`Lexeme.lexes_iff`).

* `Lexeme.close?_eq_some_iff`: a string is closed exactly where the pattern of strings ends;
* `Lexeme.Lexes.formed`: no lexeme is empty, and only strings hold separators inside.
-/

namespace AssignOnce

namespace Lexeme

/-! ## Strings -/

/-- The inside of a string with escapes: no quote that is not escaped, and no escaped newline. -/
inductive Escaped : List Char → Prop
  | nil : Escaped []
  | escape {d : Char} {rest : List Char} : d ≠ '\n' → Escaped rest →
      Escaped (Literal.backslash :: d :: rest)
  | plain {c : Char} {rest : List Char} : c ≠ Literal.doubleQuote → c ≠ Literal.backslash →
      Escaped rest → Escaped (c :: rest)

/-- A closed string with its quotes. -/
inductive IsString : List Char → Prop
  | escaped {body : List Char} : Escaped body →
      IsString (Literal.doubleQuote :: (body ++ [Literal.doubleQuote]))
  | raw {body : List Char} : Literal.backQuote ∉ body →
      IsString (Literal.backQuote :: (body ++ [Literal.backQuote]))

theorem closeEscaped?_of_escaped {body : List Char} (h : Escaped body) (after : List Char) :
    closeEscaped? (body ++ Literal.doubleQuote :: after) =
      some (body ++ [Literal.doubleQuote], after) := by
  induction h with
  | nil =>
    unfold closeEscaped?
    simp
  | escape hd _ ih =>
    have hquote : Literal.backslash ≠ Literal.doubleQuote := by decide
    unfold closeEscaped?
    simp [hquote, hd, ih]
  | plain hquote hslash _ ih =>
    unfold closeEscaped?
    simp [hquote, hslash, ih]

theorem escaped_of_closeEscaped? {cs inside after : List Char}
    (h : closeEscaped? cs = some (inside, after)) :
    ∃ body, Escaped body ∧ inside = body ++ [Literal.doubleQuote] := by
  fun_induction closeEscaped? cs generalizing inside after with
  | case1 => cases h
  | case2 rest =>
    cases h
    exact ⟨[], .nil, rfl⟩
  | case3 => cases h
  | case4 => cases h
  | case5 d rest _ hd ih =>
    obtain ⟨⟨i, a⟩, hi, he⟩ := Option.map_eq_some_iff.1 h
    cases he
    obtain ⟨body, hbody, rfl⟩ := ih hi
    exact ⟨_, .escape ‹_› hbody, rfl⟩
  | case6 c rest hquote hslash ih =>
    obtain ⟨⟨i, a⟩, hi, he⟩ := Option.map_eq_some_iff.1 h
    cases he
    obtain ⟨body, hbody, rfl⟩ := ih hi
    exact ⟨_, .plain hquote hslash hbody, rfl⟩

theorem closeRaw?_of_notMem {body : List Char} (h : Literal.backQuote ∉ body)
    (after : List Char) : closeRaw? (body ++ Literal.backQuote :: after) =
      some (body ++ [Literal.backQuote], after) := by
  induction body with
  | nil => simp [closeRaw?]
  | cons c body ih =>
    obtain ⟨hc, hbody⟩ := not_or.1 (fun hmem => h (List.mem_cons.2 hmem))
    simp [closeRaw?, Ne.symm hc, ih hbody]

theorem notMem_of_closeRaw? {cs inside after : List Char}
    (h : closeRaw? cs = some (inside, after)) :
    ∃ body, Literal.backQuote ∉ body ∧ inside = body ++ [Literal.backQuote] := by
  induction cs generalizing inside after with
  | nil => cases h
  | cons c rest ih =>
    simp only [closeRaw?] at h
    split at h
    · rename_i hc
      cases h
      exact ⟨[], List.not_mem_nil, by rw [hc]; rfl⟩
    · rename_i hc
      obtain ⟨⟨i, a⟩, hi, he⟩ := Option.map_eq_some_iff.1 h
      cases he
      obtain ⟨body, hbody, rfl⟩ := ih hi
      refine ⟨c :: body, ?_, rfl⟩
      simp [Ne.symm hc, hbody]

/-- A string is closed exactly where the pattern of strings ends. -/
theorem close?_eq_some_iff {c : Char} {rest inside after : List Char} :
    close? c rest = some (inside, after) ↔ IsString (c :: inside) ∧ inside ++ after = rest := by
  constructor
  · intro h
    refine ⟨?_, append_of_close? h⟩
    unfold close? at h
    split at h
    · rename_i hc
      obtain ⟨body, hbody, rfl⟩ := escaped_of_closeEscaped? h
      exact hc ▸ .escaped hbody
    · split at h
      · rename_i hc
        obtain ⟨body, hbody, rfl⟩ := notMem_of_closeRaw? h
        exact hc ▸ .raw hbody
      · cases h
  · rintro ⟨hstring, rfl⟩
    cases hstring with
    | escaped hbody => simpa [close?] using closeEscaped?_of_escaped hbody after
    | raw hbody =>
      have hquote : Literal.backQuote ≠ Literal.doubleQuote := by decide
      simpa [close?, hquote] using closeRaw?_of_notMem hbody after

/-! ## Rules -/

/-- The rules of the lexer. -/
inductive Rule where
  | string
  | comma
  | blanks
  | word
  deriving DecidableEq, Repr

namespace Rule

/-- Whether a text is what a rule is about. -/
def Accepts : Rule → List Char → Prop
  | .string, t => IsString t
  | .comma, t => t = [',']
  | .blanks, t => t ≠ [] ∧ ∀ c ∈ t, isBlank c
  | .word, t => t ≠ [] ∧ ∀ c ∈ t, separates c = false

/-- What a rule takes from the front of a text: the longest front that it accepts. -/
structure Takes (r : Rule) (text front : List Char) : Prop where
  isPrefix : front <+: text
  accepts : r.Accepts front
  longest {t : List Char} : t <+: text → r.Accepts t → t.length ≤ front.length

/-- The rules that are tried before a rule. -/
def before : Rule → List Rule
  | .string => []
  | .comma => [.string]
  | .blanks => [.string, .comma]
  | .word => [.string, .comma, .blanks]

/-- The lexeme that a rule makes of what it takes. -/
def lexeme : Rule → List Char → Lexeme
  | .string, t => .quoted t
  | .comma, t | .blanks, t => .separator t
  | .word, t => .word t

theorem mem_before_or (r r' : Rule) : r = r' ∨ r ∈ r'.before ∨ r' ∈ r.before := by
  cases r <;> cases r' <;> decide

/-- Whether a rule accepts no front of a text. -/
def Fails (r : Rule) (text : List Char) : Prop :=
  ∀ t, t <+: text → ¬ r.Accepts t

end Rule

/-- Lexemes that the rules cut a text into. -/
inductive Lexes : List Char → List Lexeme → Prop
  | nil : Lexes [] []
  | cons {r : Rule} {front rest : List Char} {ls : List Lexeme} : r.Takes (front ++ rest) front →
      (∀ r' ∈ r.before, r'.Fails (front ++ rest)) → Lexes rest ls →
      Lexes (front ++ rest) (r.lexeme front :: ls)

variable {cs front rest : List Char} {c : Char} {ls : List Lexeme}

theorem fails_string (h : close? c rest = none) : Rule.string.Fails (c :: rest) := by
  rintro t ⟨after, ht⟩ hstring
  cases t with
  | nil => cases hstring
  | cons d inside =>
    obtain ⟨rfl, hrest⟩ := List.cons.inj ht
    rw [close?_eq_some_iff.2 ⟨hstring, hrest⟩] at h
    cases h

theorem fails_comma (h : c ≠ ',') : Rule.comma.Fails (c :: rest) := by
  rintro t ⟨after, ht⟩ rfl
  exact h (List.cons.inj ht).1.symm

theorem fails_blanks (h : isBlank c = false) : Rule.blanks.Fails (c :: rest) := by
  rintro t ⟨after, ht⟩ ⟨hne, hblank⟩
  cases t with
  | nil => exact hne rfl
  | cons d t =>
    obtain ⟨rfl, -⟩ := List.cons.inj ht
    rw [hblank d List.mem_cons_self] at h
    cases h

/-- A front of a text whose characters all have a property is part of the longest one. -/
theorem length_le_takeWhile {p : Char → Bool} {t : List Char} (ht : t <+: cs)
    (hp : ∀ d ∈ t, p d) : t.length ≤ (cs.takeWhile p).length := by
  obtain ⟨after, rfl⟩ := ht
  rw [List.takeWhile_append_of_pos hp, List.length_append]
  exact Nat.le_add_right _ _

/-- A run of characters is the longest front of a text with a property. -/
theorem takes_run {r : Rule} {p : Char → Bool} (hc : p c)
    (hr : ∀ t, r.Accepts t ↔ t ≠ [] ∧ ∀ d ∈ t, p d) :
    r.Takes (c :: rest) (c :: rest.takeWhile p) := by
  have hrun : c :: rest.takeWhile p = (c :: rest).takeWhile p := by simp [hc]
  refine ⟨?_, (hr _).2 ⟨List.cons_ne_nil _ _, ?_⟩, fun ht ha => ?_⟩
  · rw [hrun]
    exact List.takeWhile_prefix p
  · rw [hrun]
    exact fun d hd => List.mem_takeWhile_imp hd
  · rw [hrun]
    exact length_le_takeWhile ht ((hr _).1 ha).2

/-- The lexeme at the front of a text is that of the first rule that fits. -/
theorem exists_rule_next (c : Char) (rest : List Char) :
    ∃ r : Rule, (next c rest).1 = r.lexeme (next c rest).1.text ∧
      r.Takes (c :: rest) (next c rest).1.text ∧ ∀ r' ∈ r.before, r'.Fails (c :: rest) := by
  unfold next
  split
  · rename_i inside after h
    obtain ⟨hstring, hafter⟩ := close?_eq_some_iff.1 h
    refine ⟨.string, rfl, ⟨⟨after, by rw [← hafter]; rfl⟩, hstring, ?_⟩, by simp [Rule.before]⟩
    rintro t ⟨after', ht⟩ ht'
    cases t with
    | nil => cases ht'
    | cons d inside' =>
      obtain ⟨rfl, hrest⟩ := List.cons.inj ht
      have h' := close?_eq_some_iff.2 ⟨ht', hrest⟩
      rw [h] at h'
      cases h'
      exact Nat.le_refl _
  · rename_i h
    have hstring : Rule.string.Fails (c :: rest) := fails_string h
    split
    · rename_i hc
      subst hc
      refine ⟨.comma, rfl, ⟨⟨rest, rfl⟩, rfl, ?_⟩, by simpa [Rule.before] using hstring⟩
      rintro t - rfl
      exact Nat.le_refl _
    · rename_i hcomma
      have hcommas : Rule.comma.Fails (c :: rest) := fails_comma hcomma
      split
      · rename_i hblank
        refine ⟨.blanks, rfl, takes_run hblank fun t => Iff.rfl, ?_⟩
        simpa [Rule.before] using ⟨hstring, hcommas⟩
      · rename_i hblank
        have hblanks : Rule.blanks.Fails (c :: rest) := fails_blanks (Bool.eq_false_iff.2 hblank)
        refine ⟨.word, rfl, takes_run ?_ fun t => ?_, ?_⟩
        · simp [separates, hcomma, hblank]
        · simp [Rule.Accepts]
        · simpa [Rule.before] using ⟨hstring, hcommas, hblanks⟩

/-- The lexemes of a text are those that the rules cut it into. -/
theorem lexes_scan (cs : List Char) : Lexes cs (scan cs) := by
  fun_induction scan cs with
  | case1 => exact .nil
  | case2 c rest ih =>
    obtain ⟨r, hlexeme, htakes, hfails⟩ := exists_rule_next c rest
    rw [← append_next c rest] at htakes hfails
    rw [hlexeme]
    have hcut := Lexes.cons htakes hfails ih
    rwa [append_next] at hcut

theorem Rule.Takes.ne_nil {r : Rule} (h : r.Takes cs front) : front ≠ [] := by
  rintro rfl
  cases r with
  | string | comma => cases h.accepts
  | blanks | word => exact h.accepts.1 rfl

/-- No other rule that comes first takes anything, and a rule takes only one front. -/
theorem Rule.Takes.unique {r r' : Rule} {front' : List Char} (h : r.Takes cs front)
    (hfirst : ∀ q ∈ r.before, q.Fails cs) (h' : r'.Takes cs front')
    (hfirst' : ∀ q ∈ r'.before, q.Fails cs) : r = r' ∧ front = front' := by
  obtain rfl : r = r' := by
    rcases Rule.mem_before_or r r' with rfl | hbefore | hbefore
    · rfl
    · exact absurd h.accepts (hfirst' r hbefore front h.isPrefix)
    · exact absurd h'.accepts (hfirst r' hbefore front' h'.isPrefix)
  have hle := h.longest h'.isPrefix h'.accepts
  have hle' := h'.longest h.isPrefix h.accepts
  exact ⟨rfl, (List.prefix_of_prefix_length_le h.isPrefix h'.isPrefix hle').eq_of_length_le hle⟩

theorem Lexes.unique {ls' : List Lexeme} (h : Lexes cs ls) (h' : Lexes cs ls') : ls = ls' := by
  induction h generalizing ls' with
  | nil =>
    generalize hcs : ([] : List Char) = cs at h'
    cases h' with
    | nil => rfl
    | cons htakes => exact absurd (List.append_eq_nil_iff.1 hcs.symm).1 htakes.ne_nil
  | @cons r front rest ls htakes hfirst _ ih =>
    generalize hcs : front ++ rest = cs at h'
    cases h' with
    | nil => exact absurd (List.append_eq_nil_iff.1 hcs).1 htakes.ne_nil
    | @cons r' front' rest' ls' htakes' hfirst' hrest' =>
      rw [hcs] at htakes hfirst
      obtain ⟨rfl, rfl⟩ := htakes.unique hfirst htakes' hfirst'
      obtain rfl := List.append_cancel_left hcs
      rw [ih hrest']

/-- The rules cut every text, and in one way only. -/
theorem lexes_iff : Lexes cs ls ↔ ls = scan cs :=
  ⟨fun h => h.unique (lexes_scan cs), fun h => h ▸ lexes_scan cs⟩

/-! ## Lexemes of a cut -/

/-- The text of an argument; separators are none. -/
def argument? : Lexeme → Option (List Char)
  | .quoted t | .word t => some t
  | .separator _ => none

/-- Whether a lexeme is a comma, a run of white space, or an argument that is not empty and holds
separators only if it is a closed string. -/
def Formed : Lexeme → Prop
  | .separator t => t = [','] ∨ t ≠ [] ∧ ∀ c ∈ t, isBlank c
  | .quoted t => IsString t
  | .word t => t ≠ [] ∧ ∀ c ∈ t, separates c = false

theorem formed_lexeme {r : Rule} {t : List Char} (h : r.Accepts t) : (r.lexeme t).Formed := by
  cases r with
  | string | word => exact h
  | comma => exact .inl h
  | blanks => exact .inr h

theorem Lexes.formed (h : Lexes cs ls) : ∀ l ∈ ls, l.Formed := by
  induction h with
  | nil => exact fun l hl => absurd hl List.not_mem_nil
  | cons htakes _ _ ih => exact List.forall_mem_cons.2 ⟨formed_lexeme htakes.accepts, ih⟩

end Lexeme

end AssignOnce
