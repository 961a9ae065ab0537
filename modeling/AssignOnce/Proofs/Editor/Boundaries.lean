import AssignOnce.Proofs.Editor.Encoding

/-!
# Positions and boundaries

An offset of a text is a boundary (`EditorText.IsBoundary`) when reading comes to it from the start
of its line. Newlines are characters of their own, so reading from the start of the text comes to
the same offsets (`EditorText.isBoundary_iff`). At a boundary, the position depends on the
characters in front of it alone (`EditorText.behind`), and every position leads behind those
characters that are in front of it (`EditorText.offsetAt_reads`). So offsets and positions are
inverse to each other on boundaries (`EditorText.positions_of_boundaries`), whether the bytes are
well formed or not.
-/

namespace AssignOnce

theorem Position.isBefore_iff {p q : Position} : p.isBefore q ↔
    p.line < q.line ∨ p.line = q.line ∧ p.character < q.character := by
  simp [isBefore]

namespace EditorText

open Utf8 (ReadAs Reads)

variable {text : Bytes} {c : Char} {bytes front rest : Bytes} {cs : List Char}

/-! ## Boundaries -/

/-- Whether an offset is between characters, when its line is read from the start. -/
def IsBoundary (text : Bytes) (offset : Nat) : Prop :=
  ∃ lines front rest cs, text = lines ++ (front ++ rest) ∧ Lines.Whole lines ∧
    Lines.newline ∉ front ∧ Reads rest cs front ∧ offset = lines.length + front.length

/-- Reading comes to the start of the last line, and on from there. -/
theorem exists_lastLine_reads (h : Reads rest cs front) :
    ∃ lines line ds, front = lines ++ line ∧ Lines.Whole lines ∧ Lines.newline ∉ line ∧
      Reads rest ds line := by
  induction h with
  | nil => exact ⟨[], [], [], rfl, Lines.whole_nil, List.not_mem_nil, .nil⟩
  | @cons c cs bytes front first others ih =>
    obtain ⟨lines, line, ds, rfl, hwhole, hline, hreads⟩ := ih
    by_cases hlines : lines = []
    · subst hlines
      by_cases hc : c = '\n'
      · subst hc
        rw [first.eq_newline]
        exact ⟨_, line, ds, rfl, Lines.whole_newline, hline, hreads⟩
      · refine ⟨[], bytes ++ line, c :: cs, rfl, Lines.whole_nil, ?_, .cons first others⟩
        simp [first.newline_mem_iff, hc, hline]
    · exact ⟨bytes ++ lines, line, ds, by simp, hwhole.append hlines, hline, hreads⟩

theorem isBoundary_iff {offset : Nat} : IsBoundary text offset ↔
    ∃ front rest cs, text = front ++ rest ∧ Reads rest cs front ∧ offset = front.length := by
  constructor
  · rintro ⟨lines, front, rest, cs, rfl, hwhole, -, hreads, rfl⟩
    obtain ⟨ds, hlines⟩ := Utf8.exists_reads lines (front ++ rest) (.inr hwhole)
    exact ⟨lines ++ front, rest, ds ++ cs, by simp, hlines.append hreads, by simp⟩
  · rintro ⟨front, rest, cs, rfl, hreads, rfl⟩
    obtain ⟨lines, line, ds, rfl, hwhole, hline, hds⟩ := exists_lastLine_reads hreads
    exact ⟨lines, line, rest, ds, by simp, hwhole, hline, hds, by simp⟩

/-! ## The position of an offset -/

/-- The position behind some characters. -/
def behind : List Char → Position
  | [] => ⟨0, 0⟩
  | c :: rest =>
    if c = '\n' then ⟨(behind rest).line + 1, (behind rest).character⟩
    else if (behind rest).line = 0 then ⟨0, utf16Units c + (behind rest).character⟩
    else behind rest

/-- The position of a boundary is that behind the characters in front of it. -/
theorem positionAt_reads (h : Reads rest cs front) :
    positionAt (front ++ rest) front.length = behind cs := by
  have htake : (front ++ rest).take (front.length : Int).toNat = front := by simp
  rw [positionAt_eq, htake]
  clear htake
  induction h with
  | nil => simp [behind, lastLine, units, Utf8.decode, charUnits]
  | @cons c cs bytes front first others ih =>
    rw [behind, ← ih]
    by_cases hc : c = '\n'
    · subst hc
      rw [first.eq_newline, List.singleton_append, lastLine_newline_cons]
      simp
    · have hbytes : Lines.newline ∉ bytes := by rwa [first.newline_mem_iff]
      rw [if_neg hc, List.count_append, List.count_eq_zero.2 hbytes, Nat.zero_add]
      by_cases hfront : Lines.newline ∈ front
      · have hcount := List.count_pos_iff.2 hfront
        rw [if_neg (by simp only; omega), lastLine_append_of_mem hfront]
      · have hline : Lines.newline ∉ bytes ++ front := by simp [hbytes, hfront]
        have hdecode := (Reads.cons first others).decode_eq
        simp only [List.count_eq_zero.2 hfront, if_true, lastLine_of_notMem hline,
          lastLine_of_notMem hfront, units, hdecode, others.decode_eq, charUnits]

/-! ## The offset of a position -/

theorem offsetAt_zero_of_newline (n : Nat) : offsetAt (Lines.newline :: rest) ⟨0, n⟩ = 0 := by
  rw [offsetAt_zero]
  simp [column]

/-- A position of the first line is found behind the first character of that line. -/
theorem offsetAt_zero_readAs (h : ReadAs c bytes rest) (hc : c ≠ '\n') {n : Nat} (hn : n ≠ 0) :
    offsetAt (bytes ++ rest) ⟨0, n⟩ = bytes.length + offsetAt rest ⟨0, n - utf16Units c⟩ := by
  have hline : (bytes ++ rest).takeWhile (· != Lines.newline) =
      bytes ++ rest.takeWhile (· != Lines.newline) := by
    refine List.takeWhile_append_of_pos fun b hb => ?_
    have hne : b ≠ Lines.newline := by
      rintro rfl
      exact hc (h.newline_mem_iff.1 hb)
    simpa using hne
  have hcut : ReadAs c bytes (rest.takeWhile (· != Lines.newline)) := by
    rw [← List.takeWhile_append_dropWhile (p := (· != Lines.newline)) (l := rest)] at h
    exact h.cut
  rw [offsetAt_zero, offsetAt_zero, hline, column_readAs hcut hn]

theorem offsetAt_succ_readAs (h : ReadAs c bytes rest) (line n : Nat) :
    offsetAt (bytes ++ rest) ⟨line + 1, n⟩ =
      bytes.length + offsetAt rest ⟨if c = '\n' then line else line + 1, n⟩ := by
  by_cases hc : c = '\n'
  · subst hc
    rw [h.eq_newline, List.singleton_append, offsetAt_cons_succ, if_pos rfl, if_pos rfl]
    rfl
  · have hbytes : Lines.newline ∉ bytes := by rwa [h.newline_mem_iff]
    rw [if_neg hc]
    exact Encoding.bytes.offsetAt_append_succ hbytes rest line n

theorem inFront_zero (n : Nat) (cs : List Char) : inFront n 0 cs = reached n cs := by
  cases cs <;> rfl

/-- Every position leads behind the characters that are in front of it. -/
theorem offsetAt_reads (h : Reads [] cs text) (line n : Nat) :
    ∃ front rest, text = front ++ rest ∧ Reads rest (inFront n line cs) front ∧
      offsetAt text ⟨line, n⟩ = front.length := by
  induction h generalizing line n with
  | nil =>
    refine ⟨[], [], rfl, ?_, ?_⟩
    · cases line <;> exact .nil
    · cases line with
      | zero => exact (offsetAt_zero [] n).trans (Encoding.bytes.column_nil n)
      | succ line => rfl
  | @cons c cs bytes others first hothers ih =>
    rw [List.append_nil] at first
    cases line with
    | zero =>
      by_cases hstop : n = 0 ∨ c = '\n'
      · refine ⟨[], bytes ++ others, rfl, ?_, ?_⟩
        · rw [inFront, reached, if_pos hstop]
          exact .nil
        · rcases hstop with rfl | rfl
          · exact (Encoding.bytes.offsetAt_zero _ 0).trans (Encoding.bytes.column_zero _)
          · rw [first.eq_newline]
            exact offsetAt_zero_of_newline n
      · obtain ⟨front, rest, rfl, hfront, hoffset⟩ := ih 0 (n - utf16Units c)
        rw [inFront_zero] at hfront
        refine ⟨bytes ++ front, rest, by simp, ?_, ?_⟩
        · rw [inFront, reached, if_neg hstop]
          exact .cons first hfront
        · rw [not_or] at hstop
          rw [offsetAt_zero_readAs first hstop.2 hstop.1, hoffset, List.length_append]
    | succ line =>
      obtain ⟨front, rest, rfl, hfront, hoffset⟩ := ih (if c = '\n' then line else line + 1) n
      refine ⟨bytes ++ front, rest, by simp, .cons first hfront, ?_⟩
      rw [offsetAt_succ_readAs first, hoffset, List.length_append]

/-! ## Characters in front of a position -/

/-- The characters in front of a position that is behind some of them are those. -/
theorem inFront_behind (cs ds : List Char) :
    inFront (behind cs).character (behind cs).line (cs ++ ds) = cs := by
  induction cs with
  | nil =>
    rw [behind, inFront_zero]
    cases ds <;> simp [reached]
  | cons c cs ih =>
    rw [behind]
    by_cases hc : c = '\n'
    · simp only [if_pos hc, List.cons_append, inFront, ih]
    · rw [if_neg hc]
      by_cases hline : (behind cs).line = 0
      · rw [hline, inFront_zero] at ih
        have hpos := utf16Units_pos c
        rw [if_pos hline, inFront_zero, List.cons_append, reached, if_neg (by simp [hc]; omega),
          Nat.add_sub_cancel_left, ih]
      · obtain ⟨line, hsucc⟩ := Nat.exists_eq_succ_of_ne_zero hline
        rw [hsucc] at ih
        rw [if_neg hline, hsucc, List.cons_append, inFront, if_neg hc, ih]

theorem reached_mono {m n : Nat} (h : m ≤ n) (cs : List Char) : reached m cs <+: reached n cs := by
  induction cs generalizing m n with
  | nil => exact List.nil_prefix
  | cons c cs ih =>
    rw [reached, reached]
    by_cases hstop : m = 0 ∨ c = '\n'
    · rw [if_pos hstop]
      exact List.nil_prefix
    · rw [if_neg hstop, if_neg fun hn => hstop (hn.imp_left (by omega))]
      exact (List.prefix_cons_inj c).2 (ih (by omega))

/-- More characters are in front of a later position. -/
theorem inFront_mono {line line' m n : Nat} (h : line < line' ∨ line = line' ∧ m ≤ n)
    (cs : List Char) : inFront m line cs <+: inFront n line' cs := by
  induction cs generalizing line line' m with
  | nil => cases line <;> exact List.nil_prefix
  | cons c cs ih =>
    cases line with
    | zero =>
      cases line' with
      | zero => exact reached_mono (by omega) _
      | succ line' =>
        rw [inFront, inFront, reached]
        split
        · exact List.nil_prefix
        · next hstop =>
          rw [if_neg (by tauto), ← inFront_zero]
          exact (List.prefix_cons_inj c).2 (ih (.inl (Nat.succ_pos line')))
    | succ line =>
      cases line' with
      | zero => omega
      | succ line' =>
        refine (List.prefix_cons_inj c).2 (ih ?_)
        split <;> omega

/-! ## Offsets and positions -/

theorem isBoundary_offsetAt (text : Bytes) (p : Position) :
    IsBoundary text (offsetAt text p) := by
  obtain ⟨cs, hcs⟩ := Utf8.exists_reads text [] (.inl Lines.endsLine_nil)
  obtain ⟨front, rest, rfl, hfront, hoffset⟩ := offsetAt_reads hcs p.line p.character
  exact isBoundary_iff.2 ⟨front, rest, _, rfl, hfront, hoffset⟩

theorem offsetAt_positionAt {offset : Nat} (h : IsBoundary text offset) :
    offsetAt text (positionAt text offset) = offset := by
  obtain ⟨front, rest, cs, rfl, hreads, rfl⟩ := isBoundary_iff.1 h
  obtain ⟨ds, hds⟩ := Utf8.exists_reads rest [] (.inl Lines.endsLine_nil)
  have hwhole : Reads [] (cs ++ ds) (front ++ rest) := by
    rw [← List.append_nil rest] at hreads
    exact hreads.append hds
  obtain ⟨front', rest', htext, hreads', hoffset⟩ :=
    offsetAt_reads hwhole (behind cs).line (behind cs).character
  rw [inFront_behind] at hreads'
  rw [positionAt_reads hreads, hoffset]
  -- the same characters at the front of a text have the same bytes
  have hle := hreads.isPrefix hreads' htext (List.prefix_refl cs)
  have hge := hreads'.isPrefix hreads htext.symm (List.prefix_refl cs)
  exact Nat.le_antisymm hge.length_le hle.length_le

theorem offsetAt_mono {p q : Position} (h : ¬ q.isBefore p) (text : Bytes) :
    offsetAt text p ≤ offsetAt text q := by
  obtain ⟨cs, hcs⟩ := Utf8.exists_reads text [] (.inl Lines.endsLine_nil)
  obtain ⟨a, r, ha, hreads, hoffset⟩ := offsetAt_reads hcs p.line p.character
  obtain ⟨b, r', hb, hreads', hoffset'⟩ := offsetAt_reads hcs q.line q.character
  have hle : p.line < q.line ∨ p.line = q.line ∧ p.character ≤ q.character := by
    rw [Position.isBefore_iff] at h
    omega
  rw [hoffset, hoffset']
  exact (hreads.isPrefix hreads' (ha.symm.trans hb) (inFront_mono hle cs)).length_le

theorem positionAt_lt {a b : Nat} (ha : IsBoundary text a) (hb : IsBoundary text b) (h : a < b) :
    (positionAt text a).isBefore (positionAt text b) := by
  by_contra hnot
  have hle := offsetAt_mono hnot text
  rw [offsetAt_positionAt ha, offsetAt_positionAt hb] at hle
  omega

theorem utf16Units_le_length (h : ReadAs c bytes rest) : utf16Units c ≤ bytes.length := by
  rcases h.cases with rfl | ⟨rfl, ⟨b, rfl⟩, -⟩
  · rw [String.length_utf8EncodeChar]
    unfold utf16Units
    split
    · exact c.utf8Size_pos
    · next hc =>
      have hv : c.val.toNat = c.toNat := rfl
      have hfour : c.utf8Size = 4 := by
        simp only [Char.utf8Size, UInt32.le_iff_toNat_le, hv]
        rw [if_neg, if_neg, if_neg] <;> simp <;> omega
      omega
  · have hone : utf16Units Utf8.replacement = 1 := by decide
    exact Nat.le_of_eq hone

theorem units_le_length (text : Bytes) : units text ≤ text.length := by
  obtain ⟨cs, hcs⟩ := Utf8.exists_reads text [] (.inl Lines.endsLine_nil)
  rw [units, hcs.decode_eq]
  induction hcs with
  | nil => exact Nat.le_refl 0
  | cons first others ih =>
    have hfirst := utf16Units_le_length first
    rw [charUnits, List.length_append]
    omega

theorem positionAt_le (text : Bytes) (offset : Int) :
    (positionAt text offset).line ≤ text.length ∧
      (positionAt text offset).character ≤ text.length := by
  have hfront : (text.take offset.toNat).length ≤ text.length := List.length_take_le' _ _
  rw [positionAt_eq]
  refine ⟨List.count_le_length.trans hfront, (units_le_length _).trans ?_⟩
  exact (List.rtakeWhile_suffix _ _).length_le.trans hfront

theorem positionAt_of_nonpos {offset : Int} (h : offset ≤ 0) :
    positionAt text offset = positionAt text 0 := by
  rw [positionAt, Int.toNat_of_nonpos h]
  rfl

theorem positionAt_of_length_le {offset : Int} (h : text.length ≤ offset) :
    positionAt text offset = positionAt text text.length := by
  rw [positionAt, Nat.min_eq_right (by omega), positionAt, Int.toNat_natCast, Nat.min_self]

/-- Offsets and positions are inverse to each other on boundaries, and both keep the order. An
offset outside the text has the position of the nearest end, no position of an offset has a part
greater than the length of the text, and every position leads to a boundary. -/
theorem positions_of_boundaries (text : Bytes) :
    (∀ o : Nat, IsBoundary text o → offsetAt text (positionAt text o) = o) ∧
      (∀ a b : Nat, IsBoundary text a → IsBoundary text b → a < b →
        (positionAt text a).isBefore (positionAt text b)) ∧
      (∀ o : Int, o ≤ 0 → positionAt text o = positionAt text 0) ∧
      (∀ o : Int, text.length ≤ o → positionAt text o = positionAt text text.length) ∧
      (∀ o : Int, (positionAt text o).line ≤ text.length ∧
        (positionAt text o).character ≤ text.length) ∧
      (∀ p, IsBoundary text (offsetAt text p)) ∧
      (∀ p q : Position, ¬ q.isBefore p → offsetAt text p ≤ offsetAt text q) ∧
      (∀ p, (∃ o : Nat, IsBoundary text o ∧ positionAt text o = p) →
        positionAt text (offsetAt text p) = p) := by
  refine ⟨fun o ho => offsetAt_positionAt ho, fun a b ha hb hab => positionAt_lt ha hb hab,
    fun o ho => positionAt_of_nonpos ho, fun o ho => positionAt_of_length_le ho,
    positionAt_le text, isBoundary_offsetAt text, fun p q hpq => offsetAt_mono hpq text, ?_⟩
  rintro p ⟨o, ho, rfl⟩
  rw [offsetAt_positionAt ho]

/-- A character that is cut off by the end of its line, a character of two units and an empty
line. -/
def cutOffCharacter : Bytes :=
  [97, 0xC3, 10, 0xF0, 0x9F, 0x98, 0x80, 10, 10]

theorem positions_of_boundaries_cutOffCharacter :
    IsBoundary cutOffCharacter 2 ∧ IsBoundary cutOffCharacter 7 ∧
      positionAt cutOffCharacter 2 = ⟨0, 2⟩ ∧ positionAt cutOffCharacter 7 = ⟨1, 2⟩ ∧
      offsetAt cutOffCharacter (positionAt cutOffCharacter 2) = 2 ∧
      (positionAt cutOffCharacter 2).isBefore (positionAt cutOffCharacter 7) ∧
      positionAt cutOffCharacter (-1) = positionAt cutOffCharacter 0 ∧
      positionAt cutOffCharacter 12 = positionAt cutOffCharacter 9 ∧
      offsetAt cutOffCharacter ⟨0, 5⟩ ≤ offsetAt cutOffCharacter ⟨1, 1⟩ ∧
      positionAt cutOffCharacter (offsetAt cutOffCharacter ⟨1, 2⟩) = ⟨1, 2⟩ := by
  obtain ⟨hinverse, hlt, hlow, hhigh, -, hboundary, hmono, hback⟩ :=
    positions_of_boundaries cutOffCharacter
  have htwo : IsBoundary cutOffCharacter 2 := by
    rw [show 2 = offsetAt cutOffCharacter ⟨0, 5⟩ by decide +kernel]
    exact hboundary _
  have hseven : IsBoundary cutOffCharacter 7 := by
    rw [show 7 = offsetAt cutOffCharacter ⟨1, 1⟩ by decide +kernel]
    exact hboundary _
  have hposition : positionAt cutOffCharacter 7 = ⟨1, 2⟩ := by decide +kernel
  exact ⟨htwo, hseven, by decide +kernel, hposition, hinverse 2 htwo,
    hlt 2 7 htwo hseven (by decide), hlow (-1) (by decide), hhigh 12 (by decide),
    hmono _ _ (by decide), hback _ ⟨7, hseven, hposition⟩⟩

end EditorText

end AssignOnce
