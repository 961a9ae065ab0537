import AssignOnce.Text.Literal

/-!
# The arguments of a directive, cut into lexemes

The arguments of a directive are quoted strings and words, separated by commas and white space. At
each place the first of these that fits is taken: a closed string, a comma, a run of white space, a
word. A word reaches to the next separator, so it may hold a quote that is not closed. Some lexeme
always fits, and the lexemes put together are the text (`Lexeme.flatMap_text_scan`).
-/

namespace AssignOnce

/-- A piece of the arguments of a directive. -/
inductive Lexeme where
  /-- A string literal with its quotes. -/
  | quoted (text : List Char)
  /-- A comma or a run of white space. -/
  | separator (text : List Char)
  | word (text : List Char)
  deriving DecidableEq, Repr

namespace Lexeme

/-- The characters of a lexeme. -/
def text : Lexeme → List Char
  | .quoted t | .separator t | .word t => t

/-- The white space between arguments. -/
def isBlank (c : Char) : Bool :=
  c == ' ' || c == '\t' || c == '\n' || c == '\r' || c == Char.ofNat 12

/-- A character that ends a word. -/
def separates (c : Char) : Bool :=
  c == ',' || isBlank c

/-- The rest of a string with escapes up to its closing quote, and what follows. A backslash
escapes any character but a newline. -/
def closeEscaped? : List Char → Option (List Char × List Char)
  | [] => none
  | c :: rest =>
    if c = Literal.doubleQuote then some ([c], rest)
    else if c = Literal.backslash then
      match rest with
      | [] => none
      | d :: rest =>
        if d = '\n' then none
        else (closeEscaped? rest).map fun (inside, after) => (c :: d :: inside, after)
    else (closeEscaped? rest).map fun (inside, after) => (c :: inside, after)

/-- The rest of a raw string up to its closing quote, and what follows. -/
def closeRaw? : List Char → Option (List Char × List Char)
  | [] => none
  | c :: rest =>
    if c = Literal.backQuote then some ([c], rest)
    else (closeRaw? rest).map fun (inside, after) => (c :: inside, after)

/-- The rest of the string that a character opens, and what follows. -/
def close? (opening : Char) (rest : List Char) : Option (List Char × List Char) :=
  if opening = Literal.doubleQuote then closeEscaped? rest
  else if opening = Literal.backQuote then closeRaw? rest
  else none

/-- The lexeme at the front of a text, and what follows. -/
def next (c : Char) (rest : List Char) : Lexeme × List Char :=
  match close? c rest with
  | some (inside, after) => (.quoted (c :: inside), after)
  | none =>
    if c = ',' then (.separator [c], rest)
    else if isBlank c then (.separator (c :: rest.takeWhile isBlank), rest.dropWhile isBlank)
    else (.word (c :: rest.takeWhile (!separates ·)), rest.dropWhile (!separates ·))

theorem append_of_closeEscaped? {cs inside after : List Char}
    (h : closeEscaped? cs = some (inside, after)) : inside ++ after = cs := by
  fun_induction closeEscaped? cs generalizing inside after with
  | case1 => cases h
  | case2 rest => cases h; rfl
  | case3 => cases h
  | case4 => cases h
  | case5 d rest _ _ ih =>
    obtain ⟨⟨i, a⟩, hi, he⟩ := Option.map_eq_some_iff.1 h
    cases he
    simp [ih hi]
  | case6 c rest _ _ ih =>
    obtain ⟨⟨i, a⟩, hi, he⟩ := Option.map_eq_some_iff.1 h
    cases he
    simp [ih hi]

theorem append_of_closeRaw? {cs inside after : List Char}
    (h : closeRaw? cs = some (inside, after)) : inside ++ after = cs := by
  induction cs generalizing inside after with
  | nil => cases h
  | cons c rest ih =>
    simp only [closeRaw?] at h
    split at h
    · cases h; rfl
    · obtain ⟨⟨i, a⟩, hi, he⟩ := Option.map_eq_some_iff.1 h
      cases he
      simp [ih hi]

theorem append_of_close? {c : Char} {rest inside after : List Char}
    (h : close? c rest = some (inside, after)) : inside ++ after = rest := by
  unfold close? at h
  split at h
  · exact append_of_closeEscaped? h
  · split at h
    · exact append_of_closeRaw? h
    · cases h

/-- A lexeme and what follows it are the text. -/
theorem append_next (c : Char) (rest : List Char) :
    (next c rest).1.text ++ (next c rest).2 = c :: rest := by
  unfold next
  split
  · rename_i h
    simp [text, append_of_close? h]
  · split
    · simp [text]
    · split <;> simp [text, List.takeWhile_append_dropWhile]

theorem text_next_ne_nil (c : Char) (rest : List Char) : (next c rest).1.text ≠ [] := by
  unfold next
  split
  · simp [text]
  · split
    · simp [text]
    · split <;> simp [text]

theorem length_next_lt (c : Char) (rest : List Char) :
    (next c rest).2.length < (c :: rest).length := by
  have h := congrArg List.length (append_next c rest)
  have := List.length_pos_iff.2 (text_next_ne_nil c rest)
  simp only [List.length_append] at h
  omega

/-- All lexemes of a text. -/
def scan : List Char → List Lexeme
  | [] => []
  | c :: rest => (next c rest).1 :: scan (next c rest).2
termination_by cs => cs.length
decreasing_by exact length_next_lt c rest

/-- The lexemes of a text put together are the text. -/
theorem flatMap_text_scan (cs : List Char) : (scan cs).flatMap text = cs := by
  fun_induction scan cs with
  | case1 => rfl
  | case2 c rest ih => rw [List.flatMap_cons, ih, append_next]

end Lexeme

end AssignOnce
