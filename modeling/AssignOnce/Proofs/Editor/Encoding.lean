import AssignOnce.Proofs.Editor.LineTable
import AssignOnce.Proofs.Text.Utf16

/-!
# Positions in encoded text

The server looks positions up in the bytes of a text, an editor in its UTF-16 code units. What both
have in common is an `Encoding`: how characters are written in units of some kind, and where a
position is found in a row of units, line by line. In any encoding the units in front of a position
are those of the same characters (`Encoding.offsetAt_encode`), so replacing a range replaces the
same characters (`Encoding.splice_encode`). The two encodings are `Encoding.bytes` and
`Encoding.units`.
-/

namespace AssignOnce

/-! ## Characters in front of a position -/

namespace EditorText

/-- The characters of the first line that a count of UTF-16 units reaches into. -/
def reached (count : Nat) : List Char → List Char
  | [] => []
  | c :: rest =>
    if count = 0 ∨ c = '\n' then [] else c :: reached (count - utf16Units c) rest

/-- The characters in front of a position. -/
def inFront (character : Nat) : Nat → List Char → List Char
  | 0, cs => reached character cs
  | _ + 1, [] => []
  | line + 1, c :: rest => c :: inFront character (if c = '\n' then line else line + 1) rest

theorem isPrefix_reached (count : Nat) (cs : List Char) : reached count cs <+: cs := by
  induction cs generalizing count with
  | nil => exact List.nil_prefix
  | cons c cs ih =>
    simp only [reached]
    split
    · exact List.nil_prefix
    · exact (List.prefix_cons_inj c).2 (ih _)

theorem isPrefix_inFront (character line : Nat) (cs : List Char) :
    inFront character line cs <+: cs := by
  induction cs generalizing line with
  | nil => cases line <;> exact List.nil_prefix
  | cons c cs ih =>
    cases line with
    | zero => exact isPrefix_reached character _
    | succ line => exact (List.prefix_cons_inj c).2 (ih _)

/-- The characters after a range of them is replaced. -/
def replace (cs : List Char) (range : Range) (new : List Char) : List Char :=
  inFront range.start.character range.start.line cs ++ new ++
    cs.drop (inFront range.stop.character range.stop.line cs).length

end EditorText

/-! ## Encodings -/

/-- A way to write characters in units of some kind, and to find positions in what is written. -/
structure Encoding (α : Type) [DecidableEq α] where
  newline : α
  encodeChar : Char → List α
  /-- The number of units of a line in front of a character. -/
  column : Nat → List α → Nat
  /-- The number of units in front of a position. -/
  offsetAt : List α → Position → Nat
  encodeChar_newline : encodeChar '\n' = [newline]
  eq_of_newline_mem {c : Char} : newline ∈ encodeChar c → c = '\n'
  column_nil (n : Nat) : column n [] = 0
  column_zero (line : List α) : column 0 line = 0
  column_encodeChar_append (c : Char) (rest : List α) {n : Nat} (hn : n ≠ 0) :
    column n (encodeChar c ++ rest) = (encodeChar c).length + column (n - utf16Units c) rest
  offsetAt_zero (text : List α) (n : Nat) :
    offsetAt text ⟨0, n⟩ = column n (text.takeWhile (· != newline))
  offsetAt_nil_succ (line n : Nat) : offsetAt [] ⟨line + 1, n⟩ = 0
  offsetAt_cons_succ (u : α) (rest : List α) (line n : Nat) :
    offsetAt (u :: rest) ⟨line + 1, n⟩ =
      1 + offsetAt rest ⟨if u = newline then line else line + 1, n⟩

namespace Encoding

open EditorText (reached inFront isPrefix_reached isPrefix_inFront replace)

variable {α : Type} [DecidableEq α] (e : Encoding α)

/-- The units of some characters. -/
def encode (cs : List Char) : List α :=
  cs.flatMap e.encodeChar

/-- A text after a range of it is replaced. -/
def splice (text : List α) (range : Range) (new : List α) : List α :=
  text.take (e.offsetAt text range.start) ++ new ++ text.drop (e.offsetAt text range.stop)

@[simp] theorem encode_nil : e.encode [] = [] := rfl

@[simp] theorem encode_cons (c : Char) (cs : List Char) :
    e.encode (c :: cs) = e.encodeChar c ++ e.encode cs := rfl

@[simp] theorem encode_append (cs ds : List Char) :
    e.encode (cs ++ ds) = e.encode cs ++ e.encode ds :=
  List.flatMap_append

/-- The first line goes on behind any character but a newline. -/
theorem firstLine_encodeChar_append {c : Char} (hc : c ≠ '\n') (rest : List α) :
    (e.encodeChar c ++ rest).takeWhile (· != e.newline) =
      e.encodeChar c ++ rest.takeWhile (· != e.newline) := by
  apply List.takeWhile_append_of_pos
  intro u hu
  have hne : u ≠ e.newline := by
    rintro rfl
    exact hc (e.eq_of_newline_mem hu)
  simpa using hne

theorem column_firstLine (cs : List Char) (n : Nat) :
    e.column n ((e.encode cs).takeWhile (· != e.newline)) = (e.encode (reached n cs)).length := by
  induction cs generalizing n with
  | nil => simp [reached, e.column_nil]
  | cons c cs ih =>
    rw [encode_cons, reached]
    by_cases hc : c = '\n'
    · subst hc
      simp [e.encodeChar_newline, e.column_nil]
    · rw [e.firstLine_encodeChar_append hc]
      by_cases hn : n = 0
      · subst hn
        simp [e.column_zero]
      · rw [e.column_encodeChar_append c _ hn, ih, if_neg (by simp [hn, hc]), encode_cons,
          List.length_append]

/-- A later line starts as far behind some units of the first line as it does behind the rest. -/
theorem offsetAt_append_succ {front : List α} (hf : e.newline ∉ front) (rest : List α)
    (line n : Nat) :
    e.offsetAt (front ++ rest) ⟨line + 1, n⟩ = front.length + e.offsetAt rest ⟨line + 1, n⟩ := by
  induction front with
  | nil => simp
  | cons u front ih =>
    have hu : u ≠ e.newline := fun h => hf (h ▸ List.mem_cons_self)
    rw [List.cons_append, e.offsetAt_cons_succ, if_neg hu,
      ih fun h => hf (List.mem_cons_of_mem _ h), List.length_cons]
    omega

/-- The units in front of a position are those of the characters in front of it. -/
theorem offsetAt_encode (cs : List Char) (line n : Nat) :
    e.offsetAt (e.encode cs) ⟨line, n⟩ = (e.encode (inFront n line cs)).length := by
  induction cs generalizing line with
  | nil =>
    cases line with
    | zero => rw [e.offsetAt_zero, column_firstLine, inFront]
    | succ line => exact e.offsetAt_nil_succ line n
  | cons c cs ih =>
    cases line with
    | zero => rw [e.offsetAt_zero, column_firstLine, inFront]
    | succ line =>
      rw [inFront, encode_cons, encode_cons, List.length_append]
      by_cases hc : c = '\n'
      · subst hc
        rw [e.encodeChar_newline, List.singleton_append, e.offsetAt_cons_succ, if_pos rfl,
          if_pos rfl, ih, List.length_singleton]
      · rw [e.offsetAt_append_succ (fun h => hc (e.eq_of_newline_mem h)), if_neg hc, ih]

variable {e} {cs : List Char}

theorem take_encode {front : List Char} (h : front <+: cs) :
    (e.encode cs).take (e.encode front).length = e.encode front := by
  obtain ⟨rest, rfl⟩ := h
  rw [encode_append, List.take_left']
  rfl

theorem drop_encode {front : List Char} (h : front <+: cs) :
    (e.encode cs).drop (e.encode front).length = e.encode (cs.drop front.length) := by
  obtain ⟨rest, rfl⟩ := h
  rw [encode_append, List.drop_left' rfl, List.drop_left' rfl]

theorem length_encode_le {front : List Char} (h : front <+: cs) :
    (e.encode front).length ≤ (e.encode cs).length := by
  obtain ⟨rest, rfl⟩ := h
  simp

variable (e cs)

theorem offsetAt_encode_le (p : Position) :
    e.offsetAt (e.encode cs) p ≤ (e.encode cs).length := by
  rw [offsetAt_encode]
  exact length_encode_le (isPrefix_inFront _ _ cs)

/-- Replacing a range of an encoded text replaces the same characters in every encoding. -/
theorem splice_encode (range : Range) (new : List Char) :
    e.splice (e.encode cs) range (e.encode new) = e.encode (replace cs range new) := by
  rw [splice, replace, offsetAt_encode, offsetAt_encode, take_encode (isPrefix_inFront _ _ cs),
    drop_encode (isPrefix_inFront _ _ cs), encode_append, encode_append]

end Encoding

/-! ## Bytes -/

/-- Text in bytes, as the server reads it. -/
def Encoding.bytes : Encoding UInt8 where
  newline := Lines.newline
  encodeChar := String.utf8EncodeChar
  column := EditorText.column
  offsetAt := EditorText.offsetAt
  encodeChar_newline := Utf8.utf8EncodeChar_newline
  eq_of_newline_mem := Utf8.newline_mem_utf8EncodeChar.1
  column_nil n := by rw [EditorText.column]
  column_zero := EditorText.column_zero
  column_encodeChar_append c rest _ hn :=
    EditorText.column_readAs (Utf8.readAs_encoded c rest) hn
  offsetAt_zero := EditorText.offsetAt_zero
  offsetAt_nil_succ line n := rfl
  offsetAt_cons_succ := EditorText.offsetAt_cons_succ

/-! ## Code units -/

namespace Utf16

theorem head?_splitOn_newline (text : Units) :
    (text.splitOn newline).head? = some (text.takeWhile (· != newline)) := by
  induction text with
  | nil => simp
  | cons u rest ih =>
    rw [List.splitOn_cons_eq_if_modifyHead]
    by_cases hu : u = newline <;> simp [hu, ih]

theorem offsetAt_zero (text : Units) (n : Nat) :
    offsetAt text ⟨0, n⟩ = column (text.takeWhile (· != newline)) n := by
  simp [offsetAt, ← List.head?_eq_getElem?, head?_splitOn_newline]

theorem offsetAt_nil_succ (line n : Nat) : offsetAt [] ⟨line + 1, n⟩ = 0 := by
  simp [offsetAt]

theorem offsetAt_cons_succ (u : UInt16) (rest : Units) (line n : Nat) :
    offsetAt (u :: rest) ⟨line + 1, n⟩ =
      1 + offsetAt rest ⟨if u = newline then line else line + 1, n⟩ := by
  obtain ⟨first, others, hsplit⟩ := List.exists_cons_of_ne_nil (List.splitOn_ne_nil newline rest)
  simp only [offsetAt, List.splitOn_cons_eq_if_modifyHead, hsplit]
  by_cases hu : u = newline
  · -- the new line is empty
    simp only [hu, beq_self_eq_true, if_true, List.getElem?_cons_succ, List.take_succ_cons,
      List.flatMap_cons, List.length_append, List.length_cons, List.length_nil]
    cases (first :: others)[line]? with
    | none => simp only; omega
    | some l => simp only; omega
  · -- the first line is longer by one
    simp only [hu, beq_iff_eq, if_false, List.modifyHead_cons, List.getElem?_cons_succ,
      List.take_succ_cons, List.flatMap_cons, List.length_append, List.length_cons]
    cases others[line]? with
    | none => simp only; omega
    | some l => simp only; omega

end Utf16

/-- Text in UTF-16 code units, as an editor holds it. -/
def Encoding.units : Encoding UInt16 where
  newline := Utf16.newline
  encodeChar := Utf16.encodeChar
  column n line := Utf16.column line n
  offsetAt := Utf16.offsetAt
  encodeChar_newline := Utf16.encodeChar_newline
  eq_of_newline_mem := Utf16.newline_mem_encodeChar.1
  column_nil := Utf16.column_nil
  column_zero := Utf16.column_zero
  column_encodeChar_append c rest n hn := by
    rw [Utf16.length_encodeChar]
    exact Utf16.column_encodeChar_append c rest hn
  offsetAt_zero := Utf16.offsetAt_zero
  offsetAt_nil_succ := Utf16.offsetAt_nil_succ
  offsetAt_cons_succ := Utf16.offsetAt_cons_succ

end AssignOnce
