import AssignOnce.Editor.Position
import AssignOnce.Proofs.Text.Reading
import Mathlib.Data.List.DropRight

/-!
# The table of lines

Positions are looked up in the table of the offsets at which lines start, by halving, and characters
are read on from there into the rest of the text. Counting the newlines in front of an offset gives
the same line (`EditorText.positionAt_eq`), and a position is found in its line alone, cut off from
what follows (`EditorText.offsetAt_cases`): no character reaches over the end of a line.
-/

namespace AssignOnce

namespace EditorText

open Utf8 (ReadAs Reads)

variable {text lines line back : Bytes} {s n : Nat}

/-! ## The starts of lines -/

theorem startsFrom_append (n : Nat) (front back : Bytes) :
    startsFrom n (front ++ back) = startsFrom n front ++ startsFrom (n + front.length) back := by
  induction front generalizing n with
  | nil => rfl
  | cons b front ih =>
    have hlength : n + (b :: front).length = n + 1 + front.length := by
      rw [List.length_cons]
      omega
    rw [List.cons_append, startsFrom, startsFrom, ih, hlength]
    split <;> rfl

theorem startsFrom_of_notMem (h : Lines.newline ∉ text) : startsFrom n text = [] := by
  induction text generalizing n with
  | nil => rfl
  | cons b text ih =>
    rw [List.mem_cons, not_or] at h
    rw [startsFrom, if_neg (Ne.symm h.1), ih h.2]

theorem length_startsFrom (n : Nat) (text : Bytes) :
    (startsFrom n text).length = text.count Lines.newline := by
  induction text generalizing n with
  | nil => rfl
  | cons b text ih =>
    rw [startsFrom, List.count_cons]
    by_cases hb : b = Lines.newline <;> simp [hb, ih]

theorem bounds_of_mem_startsFrom (h : s ∈ startsFrom n text) : n < s ∧ s ≤ n + text.length := by
  induction text generalizing n with
  | nil => cases h
  | cons b text ih =>
    rw [startsFrom] at h
    rw [List.length_cons]
    split at h
    · rcases List.mem_cons.1 h with rfl | h
      · omega
      · have := ih h
        omega
    · have := ih h
      omega

/-- The next line starts behind the newline of a line. -/
theorem head?_startsFrom (h : Lines.EndsLine back) (n : Nat) :
    (startsFrom n back).head? = if back = [] then none else some (n + 1) := by
  cases back with
  | nil => rfl
  | cons b rest =>
    rw [startsFrom, if_pos (h b rfl)]
    rfl

/-- In front of the start of a line, the table has one entry for each newline in front of it. -/
theorem lineStarts_append (hwhole : Lines.Whole lines) (hline : Lines.newline ∉ line)
    (back : Bytes) :
    ∃ starts, lineStarts (lines ++ (line ++ back)) =
        starts ++ lines.length :: startsFrom (lines ++ line).length back ∧
      starts.length = lines.count Lines.newline ∧ ∀ s ∈ starts, s < lines.length := by
  have hstarts : lineStarts (lines ++ (line ++ back)) =
      lineStarts lines ++ startsFrom (lines ++ line).length back := by
    rw [lineStarts, startsFrom_append, startsFrom_append, startsFrom_of_notMem hline,
      List.length_append, Nat.zero_add]
    rfl
  rcases List.eq_nil_or_concat lines with rfl | ⟨front, b, rfl⟩
  · exact ⟨[], hstarts, rfl, by simp⟩
  · rw [List.concat_eq_append] at hstarts hwhole ⊢
    obtain rfl := hwhole b (by simp)
    refine ⟨lineStarts front, ?_, ?_, fun s hs => ?_⟩
    · rw [hstarts, lineStarts, startsFrom_append]
      simp [lineStarts, startsFrom]
    · rw [lineStarts, List.length_cons, length_startsFrom, List.count_append]
      rfl
    · rw [List.length_append]
      rcases List.mem_cons.1 hs with rfl | hs
      · simp
      · have := bounds_of_mem_startsFrom hs
        simp only [List.length_singleton]
        omega

/-! ## The position of an offset -/

/-- The search finds the last line that starts at an offset or in front of it. -/
theorem lineOf_append {starts others : List Nat} {start offset : Nat} (hlt : ∀ s ∈ starts, s < start)
    (hstart : start ≤ offset) (hothers : ∀ s ∈ others, offset < s) :
    lineOf (starts ++ start :: others) offset = starts.length := by
  have hfront : ∀ s ∈ starts, decide (s < offset) = true := fun s hs =>
    decide_eq_true (Nat.lt_of_lt_of_le (hlt s hs) hstart)
  have hback : ∀ s ∈ others, decide (s < offset) = false := fun s hs =>
    decide_eq_false (Nat.not_lt.2 (Nat.le_of_lt (hothers s hs)))
  unfold lineOf
  rcases Nat.lt_or_eq_of_le hstart with hstart | rfl
  · -- the offset is behind the start of its line
    have hfound : bisect (· < offset) (starts ++ start :: others) 0
        (starts ++ start :: others).length = starts.length + 1 := by
      rw [List.append_cons]
      refine (bisect_append ?_ hback (Nat.zero_le _) (by simp)).trans List.length_append
      simpa [or_imp, forall_and, hstart] using hfront
    have hnext : (starts ++ start :: others)[starts.length + 1]? ≠ some offset := by
      rw [List.getElem?_append_right (by omega), Nat.add_sub_cancel_left, List.getElem?_cons_succ]
      intro h
      exact Nat.lt_irrefl _ (hothers _ (List.mem_of_getElem? h))
    simp only [hfound, if_neg hnext, Nat.add_sub_cancel]
  · have hfound : bisect (· < start) (starts ++ start :: others) 0
        (starts ++ start :: others).length = starts.length := by
      refine bisect_append hfront ?_ (Nat.zero_le _) (by simp)
      simpa using hback
    simp only [hfound]
    rw [if_pos (by simp)]

/-- The position behind a piece of a line. -/
theorem positionAt_append (hwhole : Lines.Whole lines) (hline : Lines.newline ∉ line)
    (back : Bytes) : positionAt (lines ++ (line ++ back)) (lines ++ line).length =
      ⟨lines.count Lines.newline, units line⟩ := by
  obtain ⟨starts, htable, hlength, hlt⟩ := lineStarts_append hwhole hline back
  have hoffset : min ((lines ++ line).length : Int).toNat (lines ++ (line ++ back)).length =
      (lines ++ line).length := by
    simp only [Int.toNat_natCast, List.length_append]
    omega
  have hline : lineOf (lineStarts (lines ++ (line ++ back))) (lines ++ line).length =
      starts.length := by
    rw [htable]
    exact lineOf_append hlt (by simp) fun s hs => (bounds_of_mem_startsFrom hs).1
  have hstart : (lineStarts (lines ++ (line ++ back))).getD starts.length 0 = lines.length := by
    rw [htable]
    simp
  have hpiece : ((lines ++ (line ++ back)).take (lines ++ line).length).drop lines.length = line := by
    rw [← List.append_assoc, List.take_left, List.drop_left]
  rw [positionAt, hoffset, hline, hstart, hpiece, hlength]

/-- The part of the last line of a text that lies in it. -/
def lastLine (text : Bytes) : Bytes :=
  text.rtakeWhile (· != Lines.newline)

theorem lastLine_concat (front : Bytes) (b : UInt8) :
    lastLine (front ++ [b]) = if b = Lines.newline then [] else lastLine front ++ [b] := by
  rw [lastLine, List.rtakeWhile_concat]
  by_cases hb : b = Lines.newline <;> simp [hb, lastLine]

theorem lastLine_of_notMem (h : Lines.newline ∉ text) : lastLine text = text := by
  rw [lastLine, List.rtakeWhile_eq_self_iff]
  intro b hb
  rw [bne_iff_ne]
  rintro rfl
  exact h hb

theorem lastLine_append_of_mem {front : Bytes} (h : Lines.newline ∈ front) (lines : Bytes) :
    lastLine (lines ++ front) = lastLine front := by
  induction front using List.reverseRecOn with
  | nil => cases h
  | append_singleton front b ih =>
    rw [← List.append_assoc, lastLine_concat, lastLine_concat]
    by_cases hb : b = Lines.newline
    · rw [if_pos hb, if_pos hb]
    · rw [List.mem_append, List.mem_singleton, eq_comm, or_iff_left hb] at h
      rw [if_neg hb, if_neg hb, ih h]

theorem lastLine_newline_cons (front : Bytes) :
    lastLine (Lines.newline :: front) = lastLine front := by
  induction front using List.reverseRecOn with
  | nil => rfl
  | append_singleton front b ih =>
    rw [← List.cons_append, lastLine_concat, lastLine_concat, ih]

theorem exists_lastLine (front : Bytes) :
    ∃ lines, front = lines ++ lastLine front ∧ Lines.Whole lines ∧
      Lines.newline ∉ lastLine front := by
  refine ⟨front.rdropWhile (· != Lines.newline), List.rdropWhile_append_rtakeWhile.symm,
    fun b hb => ?_, fun h => by simpa using List.mem_rtakeWhile_imp h⟩
  obtain ⟨hne, rfl⟩ := List.mem_getLast?_eq_getLast hb
  simpa using List.rdropWhile_last_not (· != Lines.newline) _ hne

/-- The line of an offset is the number of newlines in front of it, and its character counts the units
of what stands in front of it on that line. -/
theorem positionAt_eq (text : Bytes) (offset : Int) : positionAt text offset =
    ⟨(text.take offset.toNat).count Lines.newline, units (lastLine (text.take offset.toNat))⟩ := by
  obtain ⟨lines, hfront, hwhole, hline⟩ := exists_lastLine (text.take offset.toNat)
  have hinside : positionAt text offset = positionAt text (text.take offset.toNat).length := by
    simp only [positionAt, Int.toNat_natCast, List.length_take, Nat.min_assoc, Nat.min_self]
  have hcount := congrArg (List.count Lines.newline) hfront
  rw [List.count_append, List.count_eq_zero.2 hline, Nat.add_zero] at hcount
  have hposition := positionAt_append hwhole hline (text.drop offset.toNat)
  rw [← List.append_assoc, ← hfront, List.take_append_drop] at hposition
  rw [hinside, hposition, hcount]

/-! ## The offset of a position -/

/-- The number of bytes of the characters that a count of units reaches into, at most all of a
line. -/
def column (count : Nat) : Bytes → Nat
  | [] => 0
  | b :: rest =>
    if count = 0 then 0
    else
      let (c, size) := Utf8.next (b :: rest)
      size + column (count - utf16Units c) (rest.drop (size - 1))
termination_by line => line.length
decreasing_by simp only [List.length_drop, List.length_cons]; omega

/-- A positive count reaches over the first character of a line. -/
theorem column_readAs {c : Char} {bytes rest : Bytes} (h : ReadAs c bytes rest) {n : Nat}
    (hn : n ≠ 0) :
    column n (bytes ++ rest) = bytes.length + column (n - utf16Units c) rest := by
  obtain ⟨b, tail, rfl⟩ := List.exists_cons_of_ne_nil h.ne_nil
  have hnext : Utf8.next (b :: (tail ++ rest)) = (c, tail.length + 1) := h
  rw [List.cons_append, column, if_neg hn, hnext]
  simp

theorem column_zero (line : Bytes) : column 0 line = 0 := by
  cases line <;> simp [column]

/-- Reading on to the end of a line stays in that line. -/
theorem advance_reads {cs : List Char} (h : Reads back cs line) (front : Bytes) (n passed : Nat) :
    advance (front ++ (line ++ back)) (front ++ line).length n passed front.length =
      front.length + column (n - passed) line := by
  induction h generalizing front passed with
  | nil =>
    rw [advance, if_neg (by simp), column]
    rfl
  | @cons c cs bytes line first others ih =>
    have hpos := List.length_pos_iff.2 first.ne_nil
    by_cases hpassed : passed < n
    · -- what follows the line does not change the character that is read
      have hread : Utf8.next ((front ++ (bytes ++ line ++ back)).drop front.length) =
          (c, bytes.length) := by
        rw [List.drop_left, List.append_assoc]
        exact first
      have hstep := ih (front ++ bytes) (passed + utf16Units c)
      rw [advance, if_pos ⟨by simp only [List.length_append]; omega, hpassed⟩, hread,
        column_readAs first.cut (by omega), Nat.sub_sub]
      simp only [List.append_assoc, List.length_append] at hstep ⊢
      rw [hstep, Nat.add_assoc]
    · rw [advance, if_neg fun h => hpassed h.2, Nat.sub_eq_zero_of_le (Nat.not_lt.1 hpassed),
        column_zero, Nat.add_zero]

/-- A line ends in front of its newline, or at the end of the text. -/
theorem lineStop_append (hwhole : Lines.Whole lines) (hline : Lines.newline ∉ line)
    (hback : Lines.EndsLine back) :
    lineStop (lines ++ (line ++ back)) (lines.count Lines.newline) = (lines ++ line).length := by
  obtain ⟨starts, htable, hlength, -⟩ := lineStarts_append hwhole hline back
  have hnext : (lineStarts (lines ++ (line ++ back)))[lines.count Lines.newline + 1]? =
      (startsFrom (lines ++ line).length back).head? := by
    rw [htable, ← hlength, List.getElem?_append_right (by omega), Nat.add_sub_cancel_left,
      List.getElem?_cons_succ, List.head?_eq_getElem?]
  rw [lineStop, hnext, head?_startsFrom hback]
  by_cases hnil : back = [] <;> simp [hnil]

/-- A position is found in its line alone, cut off from what follows. -/
theorem offsetAt_append (hwhole : Lines.Whole lines) (hline : Lines.newline ∉ line)
    (hback : Lines.EndsLine back) (n : Nat) :
    offsetAt (lines ++ (line ++ back)) ⟨lines.count Lines.newline, n⟩ =
      lines.length + column n line := by
  obtain ⟨starts, htable, hlength, -⟩ := lineStarts_append hwhole hline back
  obtain ⟨cs, hcs⟩ := Utf8.exists_reads line back (.inl hback)
  have hstart : (lineStarts (lines ++ (line ++ back)))[lines.count Lines.newline]? =
      some lines.length := by
    rw [htable, ← hlength, List.getElem?_append_right (Nat.le_refl _), Nat.sub_self]
    rfl
  rw [offsetAt, hstart, lineStop_append hwhole hline hback]
  exact advance_reads hcs lines n 0

theorem offsetAt_of_count_lt {p : Position} (h : text.count Lines.newline < p.line) :
    offsetAt text p = text.length := by
  rw [offsetAt, List.getElem?_eq_none]
  rw [lineStarts, List.length_cons, length_startsFrom]
  exact h

/-! ## Line by line -/

/-- Every line that a text has can be taken out of it. -/
theorem exists_line (h : n ≤ text.count Lines.newline) :
    ∃ lines line back, text = lines ++ (line ++ back) ∧ Lines.Whole lines ∧ Lines.newline ∉ line ∧
      Lines.EndsLine back ∧ lines.count Lines.newline = n := by
  induction n generalizing text with
  | zero =>
    exact ⟨[], text.takeWhile (· != Lines.newline), text.dropWhile (· != Lines.newline), by simp,
      Lines.whole_nil, Lines.notMem_takeWhile text, Lines.endsLine_dropWhile text, rfl⟩
  | succ n ih =>
    have hmem : Lines.newline ∈ text := List.count_pos_iff.1 (by omega)
    obtain ⟨front, rest, rfl, hfront⟩ := List.eq_append_cons_of_mem hmem
    rw [List.count_append, List.count_eq_zero.2 hfront, List.count_cons_self] at h
    have hrest : n ≤ rest.count Lines.newline := by omega
    obtain ⟨lines, line, back, rfl, hwhole, hline, hback, hcount⟩ := ih hrest
    refine ⟨front ++ Lines.newline :: lines, line, back, by simp,
      hwhole.newline_cons.append (by simp), hline, hback, ?_⟩
    rw [List.count_append, List.count_eq_zero.2 hfront, List.count_cons_self, hcount, Nat.zero_add]

/-- A position of a line that the text has is found in that line alone, the newlines in front of it
counted; any other position is the end of the text. -/
theorem offsetAt_cases (text : Bytes) (m n : Nat) :
    text.count Lines.newline < m ∧ offsetAt text ⟨m, n⟩ = text.length ∨
      ∃ lines line back, text = lines ++ (line ++ back) ∧ Lines.Whole lines ∧
        Lines.newline ∉ line ∧ Lines.EndsLine back ∧ lines.count Lines.newline = m ∧
        offsetAt text ⟨m, n⟩ = lines.length + column n line := by
  rcases Nat.lt_or_ge (text.count Lines.newline) m with hlt | hle
  · exact .inl ⟨hlt, offsetAt_of_count_lt hlt⟩
  · obtain ⟨lines, line, back, rfl, hwhole, hline, hback, rfl⟩ := exists_line hle
    exact .inr ⟨lines, line, back, rfl, hwhole, hline, hback, rfl,
      offsetAt_append hwhole hline hback n⟩

/-- A position of the first line. -/
theorem offsetAt_zero (text : Bytes) (n : Nat) :
    offsetAt text ⟨0, n⟩ = column n (text.takeWhile (· != Lines.newline)) := by
  have hoffset := offsetAt_append Lines.whole_nil (Lines.notMem_takeWhile text)
    (Lines.endsLine_dropWhile text) n
  rwa [List.nil_append, List.takeWhile_append_dropWhile, List.length_nil, Nat.zero_add] at hoffset

/-- A position of a later line, without the first byte of the text. -/
theorem offsetAt_cons_succ (b : UInt8) (rest : Bytes) (line n : Nat) :
    offsetAt (b :: rest) ⟨line + 1, n⟩ =
      1 + offsetAt rest ⟨if b = Lines.newline then line else line + 1, n⟩ := by
  have hcount (lines : Bytes) : (b :: lines).count Lines.newline =
      lines.count Lines.newline + if b = Lines.newline then 1 else 0 := by
    simp [List.count_cons]
  rcases offsetAt_cases rest (if b = Lines.newline then line else line + 1) n with
    ⟨hlt, hend⟩ | ⟨lines, l, back, rfl, hwhole, hl, hback, hlines, hoffset⟩
  · have hlt' : (b :: rest).count Lines.newline < line + 1 := by
      rw [hcount]
      split_ifs at hlt ⊢ <;> omega
    rw [hend, offsetAt_of_count_lt hlt', List.length_cons, Nat.add_comm]
  · have hwhole' : Lines.Whole (b :: lines) := by
      by_cases hb : b = Lines.newline
      · rw [hb]
        exact hwhole.newline_cons
      · rw [if_neg hb] at hlines
        have hpos : 0 < lines.count Lines.newline := by omega
        exact hwhole.append (a := [b]) (List.ne_nil_of_mem (List.count_pos_iff.1 hpos))
    have hlines' : (b :: lines).count Lines.newline = line + 1 := by
      rw [hcount, hlines]
      split <;> rfl
    have hoffset' := offsetAt_append hwhole' hl hback n
    rw [hlines', List.cons_append, List.length_cons] at hoffset'
    rw [hoffset, hoffset']
    omega

end EditorText

end AssignOnce
