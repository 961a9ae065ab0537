import AssignOnce.Proofs.Text.Utf8
import Mathlib.Data.List.TakeWhile

/-!
# Reading bytes

Reading takes any text apart into characters. The bytes that are read as one character
(`Utf8.ReadAs`) are those that encode it, or a single byte that begins none. Whether reading comes
to the end of a front of a text (`Utf8.Reads`) depends on what follows. When it does, the front that
is cut off is read as the same characters (`Utf8.Reads.decode_eq`). Reading comes to the end of every
line, with its newline or without it, since no character but the newline holds that byte
(`Utf8.exists_reads`).
-/

namespace AssignOnce

namespace Lines

/-- Whether a text is made of whole lines. -/
def Whole (text : Bytes) : Prop :=
  ∀ b ∈ text.getLast?, b = newline

theorem whole_nil : Whole [] := by
  simp [Whole]

theorem whole_newline : Whole [newline] := by
  simp [Whole]

theorem Whole.append {a b : Bytes} (hb : b ≠ []) (h : Whole b) : Whole (a ++ b) := by
  rw [Whole, List.getLast?_append_of_ne_nil a hb]
  exact h

theorem Whole.of_append {a b : Bytes} (h : Whole (a ++ b)) : Whole b := by
  intro c hc
  refine h c ?_
  rw [List.getLast?_append, Option.mem_def.1 hc]
  rfl

theorem Whole.newline_cons {text : Bytes} (h : Whole text) : Whole (newline :: text) := by
  by_cases hnil : text = []
  · subst hnil
    exact whole_newline
  · exact h.append (a := [newline]) hnil

theorem Whole.newline_mem {text : Bytes} (h : Whole text) (hne : text ≠ []) : newline ∈ text := by
  have hlast := List.getLast?_eq_some_getLast hne
  rw [← h _ hlast]
  exact List.getLast_mem hne

/-- Whether a text that follows a piece of a line ends that line. -/
def EndsLine (text : Bytes) : Prop :=
  ∀ b ∈ text.head?, b = newline

theorem endsLine_nil : EndsLine [] := by
  simp [EndsLine]

theorem notMem_takeWhile (text : Bytes) : newline ∉ text.takeWhile (· != newline) := fun h => by
  simpa using List.mem_takeWhile_imp h

theorem endsLine_dropWhile (text : Bytes) : EndsLine (text.dropWhile (· != newline)) := by
  intro b hb
  have hstop := List.head?_dropWhile_not (· != newline) text
  rw [Option.mem_def.1 hb] at hstop
  simpa using hstop

end Lines

namespace Utf8

/-! ## One character -/

theorem first?_eq_some_iff {text : Bytes} {c : Char} :
    first? text = some c ↔ String.utf8EncodeChar c <+: text := by
  constructor
  · intro h
    obtain ⟨rest, hrest⟩ := ByteArray.exists_of_utf8DecodeChar?_eq_some h
    have hstart : String.utf8EncodeChar c <+: text.take 4 := by
      refine ⟨rest.data.toList, List.toByteArray_inj.1 ?_⟩
      rw [hrest, List.toByteArray_append]
      congr 1
      exact ByteArray.ext (by simp)
    exact hstart.trans (List.take_prefix 4 text)
  · rintro ⟨rest, rfl⟩
    exact first?_encoded c rest

/-- Whether some bytes are read as a character when others follow them. -/
def ReadAs (c : Char) (bytes rest : Bytes) : Prop :=
  next (bytes ++ rest) = (c, bytes.length)

variable {c : Char} {bytes rest : Bytes}

theorem readAs_encoded (c : Char) (rest : Bytes) : ReadAs c (String.utf8EncodeChar c) rest := by
  rw [ReadAs, next_encoded, String.length_utf8EncodeChar]

theorem ReadAs.cases (h : ReadAs c bytes rest) : bytes = String.utf8EncodeChar c ∨
    c = replacement ∧ (∃ b, bytes = [b]) ∧ first? (bytes ++ rest) = none := by
  unfold ReadAs next at h
  cases hfirst : first? (bytes ++ rest) with
  | some d =>
    obtain ⟨rfl, hlen⟩ := Prod.mk.inj (hfirst ▸ h)
    have hstart := first?_eq_some_iff.1 hfirst
    rw [← String.length_utf8EncodeChar] at hlen
    have hshort := List.prefix_of_prefix_length_le hstart (List.prefix_append bytes rest)
      (Nat.le_of_eq hlen)
    exact .inl (hshort.eq_of_length hlen).symm
  | none =>
    obtain ⟨rfl, hlen⟩ := Prod.mk.inj (hfirst ▸ h)
    exact .inr ⟨rfl, List.length_eq_one_iff.1 hlen.symm, rfl⟩

theorem ReadAs.ne_nil (h : ReadAs c bytes rest) : bytes ≠ [] := by
  rintro rfl
  have hpos := next_size_pos ([] ++ rest)
  rw [h] at hpos
  exact Nat.lt_irrefl 0 hpos

/-- A character is read the same when what follows it is cut off. -/
theorem ReadAs.cut {a b : Bytes} (h : ReadAs c bytes (a ++ b)) : ReadAs c bytes a := by
  rcases h.cases with rfl | ⟨rfl, ⟨x, rfl⟩, hnone⟩
  · exact readAs_encoded c a
  · have hcut : first? ([x] ++ a) = none := by
      cases hsome : first? ([x] ++ a) with
      | none => rfl
      | some d =>
        have hstart := (first?_eq_some_iff.1 hsome).trans (List.prefix_append _ b)
        rw [List.append_assoc, ← first?_eq_some_iff, hnone] at hstart
        cases hstart
    rw [ReadAs, next, hcut]
    rfl

theorem ReadAs.newline_mem_iff (h : ReadAs c bytes rest) : Lines.newline ∈ bytes ↔ c = '\n' := by
  rcases h.cases with rfl | ⟨rfl, ⟨b, rfl⟩, hnone⟩
  · exact newline_mem_utf8EncodeChar
  · constructor
    · intro hb
      rw [← List.mem_singleton.1 hb, ← utf8EncodeChar_newline, first?_encoded] at hnone
      cases hnone
    · intro hc
      exact absurd hc (by decide)

theorem ReadAs.eq_newline (h : ReadAs '\n' bytes rest) : bytes = [Lines.newline] := by
  rcases h.cases with rfl | ⟨hc, -⟩
  · exact utf8EncodeChar_newline
  · exact absurd hc (by decide)

theorem exists_readAs {text : Bytes} (h : text ≠ []) :
    ∃ c bytes rest, text = bytes ++ rest ∧ ReadAs c bytes rest := by
  have hsize : (next text).2 ≤ text.length := by
    unfold next
    split
    · next c hc =>
      rw [← String.length_utf8EncodeChar]
      exact (first?_eq_some_iff.1 hc).length_le
    · exact List.length_pos_iff.2 h
  have htext := List.take_append_drop (next text).2 text
  refine ⟨(next text).1, _, _, htext.symm, ?_⟩
  rw [ReadAs, htext, List.length_take_of_le hsize]

/-- A character is read from a text in one way. -/
theorem ReadAs.unique {d : Char} {bytes' rest' : Bytes} (h : ReadAs c bytes rest)
    (h' : ReadAs d bytes' rest') (htext : bytes ++ rest = bytes' ++ rest') :
    bytes = bytes' ∧ rest = rest' := by
  refine List.append_inj htext ?_
  rw [ReadAs, htext, h'] at h
  exact (Prod.mk.inj h).2.symm

theorem decode_append (h : ReadAs c bytes rest) : decode (bytes ++ rest) = c :: decode rest := by
  obtain ⟨b, tail, rfl⟩ := List.exists_cons_of_ne_nil h.ne_nil
  have hnext : next (b :: (tail ++ rest)) = (c, tail.length + 1) := h
  rw [List.cons_append, decode, hnext]
  simp

/-! ## Many characters -/

/-- Whether a text is read as some characters when `rest` follows it. -/
inductive Reads (rest : Bytes) : List Char → Bytes → Prop where
  | nil : Reads rest [] []
  | cons {c : Char} {cs : List Char} {bytes front : Bytes} (first : ReadAs c bytes (front ++ rest))
      (others : Reads rest cs front) : Reads rest (c :: cs) (bytes ++ front)

variable {cs ds : List Char} {front : Bytes}

/-- A text is read as the same characters when what follows it is cut off. -/
theorem Reads.decode_eq (h : Reads rest cs front) : decode front = cs := by
  induction h with
  | nil => rw [decode]
  | cons first others ih => rw [decode_append first.cut, ih]

theorem Reads.append {a b : Bytes} (ha : Reads (b ++ rest) cs a) (hb : Reads rest ds b) :
    Reads rest (cs ++ ds) (a ++ b) := by
  induction ha with
  | nil => exact hb
  | @cons c cs bytes front first others ih =>
    rw [List.append_assoc]
    refine .cons ?_ ih
    rwa [List.append_assoc]

/-- More characters of a text take more bytes. -/
theorem Reads.isPrefix {front' rest' : Bytes} (h : Reads rest cs front)
    (h' : Reads rest' ds front') (htext : front ++ rest = front' ++ rest') (hchars : cs <+: ds) :
    front <+: front' := by
  induction h generalizing ds front' with
  | nil => exact List.nil_prefix
  | @cons c cs bytes front first others ih =>
    cases h' with
    | nil => simp at hchars
    | @cons d ds bytes' front' first' others' =>
      rw [List.append_assoc, List.append_assoc] at htext
      obtain ⟨rfl, hrest⟩ := first.unique first' htext
      exact (List.prefix_append_right_inj bytes).2
        (ih others' hrest (List.cons_prefix_cons.1 hchars).2)

/-- Reading comes to the end of a text, and to the end of each of its lines, behind the newline and
in front of it. -/
theorem exists_reads (front rest : Bytes) (h : Lines.EndsLine rest ∨ Lines.Whole front) :
    ∃ cs, Reads rest cs front := by
  by_cases hfront : front = []
  · subst hfront
    exact ⟨[], .nil⟩
  obtain ⟨c, bytes, after, htext, hread⟩ :=
    exists_readAs (List.append_ne_nil_of_left_ne_nil hfront rest)
  rcases List.append_eq_append_iff.1 htext with ⟨excess, hbytes, hrest⟩ | ⟨others, rfl, rfl⟩
  · -- the first character takes the whole front, and nothing of what follows
    have hexcess : excess = [] := by
      by_contra hne
      have hmem : Lines.newline ∈ bytes := by
        rw [hbytes]
        rcases h with hends | hwhole
        · obtain ⟨b, tail, rfl⟩ := List.exists_cons_of_ne_nil hne
          obtain rfl := hends b (by simp [hrest])
          simp
        · exact List.mem_append_left _ (hwhole.newline_mem hfront)
      obtain rfl := hread.newline_mem_iff.1 hmem
      rw [hread.eq_newline] at hbytes
      have hlen := congrArg List.length hbytes
      have hpos := List.length_pos_iff.2 hfront
      have hpos' := List.length_pos_iff.2 hne
      rw [List.length_singleton, List.length_append] at hlen
      omega
    subst hexcess
    rw [List.append_nil] at hbytes
    rw [List.nil_append] at hrest
    subst hbytes hrest
    rw [← List.append_nil bytes]
    exact ⟨[c], .cons hread .nil⟩
  · have hshorter : others.length < (bytes ++ others).length := by
      have := List.length_pos_iff.2 hread.ne_nil
      rw [List.length_append]
      omega
    obtain ⟨cs, hcs⟩ := exists_reads others rest (h.imp_right Lines.Whole.of_append)
    exact ⟨c :: cs, .cons hread hcs⟩
termination_by front.length

end Utf8

end AssignOnce
