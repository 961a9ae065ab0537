import AssignOnce.Text.Lines
import Mathlib.Data.List.Basic

/-!
# Encoded text

What reading encoded text gives back: `Utf8.next_encoded` for the character at the front. The only
character whose bytes hold a newline is the newline itself (`Utf8.newline_mem_utf8EncodeChar`), so
the lines of an encoded text are the encoded lines. Texts compared byte by byte are in the order of
their characters (`Utf8.encode_lt_encode`).
-/

namespace AssignOnce

namespace Utf8

@[simp] theorem encode_append (s t : String) : encode (s ++ t) = encode s ++ encode t := by
  simp [encode]

theorem encode_ofList (cs : List Char) :
    encode (String.ofList cs) = cs.flatMap String.utf8EncodeChar := by
  simp [encode]

theorem utf8EncodeChar_newline : String.utf8EncodeChar '\n' = [Lines.newline] := by decide

/-- Every byte of a character past the first 128 has its high bit set. -/
theorem le_of_mem_utf8EncodeChar {c : Char} (hc : 128 ≤ c.toNat) {b : UInt8}
    (hb : b ∈ String.utf8EncodeChar c) : 128 ≤ b.toNat := by
  have hv : ¬ c.val.toNat ≤ 127 := by
    have : c.val.toNat = c.toNat := rfl
    omega
  simp only [String.utf8EncodeChar, if_neg hv] at hb
  split at hb
  · simp only [List.mem_cons, List.not_mem_nil, or_false] at hb
    rcases hb with rfl | rfl <;> simp only [UInt8.toNat_ofNat'] <;> omega
  · split at hb <;> simp only [List.mem_cons, List.not_mem_nil, or_false] at hb
    · rcases hb with rfl | rfl | rfl <;> simp only [UInt8.toNat_ofNat'] <;> omega
    · rcases hb with rfl | rfl | rfl | rfl <;> simp only [UInt8.toNat_ofNat'] <;> omega

theorem utf8EncodeChar_of_lt {c : Char} (hc : c.toNat < 128) :
    String.utf8EncodeChar c = [UInt8.ofNat c.toNat] := by
  have hv : c.val.toNat ≤ 127 := by
    have : c.val.toNat = c.toNat := rfl
    omega
  simp only [String.utf8EncodeChar, if_pos hv]
  rfl

theorem newline_mem_utf8EncodeChar {c : Char} :
    Lines.newline ∈ String.utf8EncodeChar c ↔ c = '\n' := by
  constructor
  · intro h
    by_cases hc : c.toNat < 128
    · rw [utf8EncodeChar_of_lt hc, List.mem_singleton] at h
      have : (UInt8.ofNat c.toNat).toNat = 10 := by rw [← h]; rfl
      rw [UInt8.toNat_ofNat', Nat.mod_eq_of_lt (by omega)] at this
      exact Char.toNat_inj.1 this
    · exact absurd (le_of_mem_utf8EncodeChar (by omega) h) (by decide)
  · rintro rfl
    decide

theorem first?_encoded (c : Char) (rest : Bytes) :
    first? (String.utf8EncodeChar c ++ rest) = some c := by
  have hlen : (String.utf8EncodeChar c).length ≤ 4 := by
    rw [String.length_utf8EncodeChar]
    exact Char.utf8Size_le_four c
  have hone : (String.utf8EncodeChar c).toByteArray.utf8DecodeChar? 0 = some c := by
    simpa [List.utf8Encode] using List.utf8DecodeChar?_utf8Encode_singleton (c := c)
  unfold first?
  rw [List.take_append, List.take_of_length_le hlen, List.toByteArray_append]
  exact ByteArray.utf8DecodeChar?_append_eq_some hone _

/-- The character at the front of an encoded text is read back. -/
theorem next_encoded (c : Char) (rest : Bytes) :
    next (String.utf8EncodeChar c ++ rest) = (c, c.utf8Size) := by
  simp only [next, first?_encoded]

/-- The first byte of a character, with what is left of a text when all its bytes are dropped. -/
theorem utf8EncodeChar_eq_cons (c : Char) : ∃ b tail, String.utf8EncodeChar c = b :: tail ∧
    ∀ rest : Bytes, (tail ++ rest).drop (c.utf8Size - 1) = rest := by
  have hlen := String.length_utf8EncodeChar c
  have hpos := c.utf8Size_pos
  cases hc : String.utf8EncodeChar c with
  | nil =>
    rw [hc, List.length_nil] at hlen
    omega
  | cons b tail =>
    refine ⟨b, tail, rfl, fun rest => ?_⟩
    rw [hc, List.length_cons] at hlen
    rw [← hlen, Nat.add_sub_cancel, List.drop_left]

/-- Reading an encoded text gives back its characters. -/
theorem decode_encoded (cs : List Char) : decode (cs.flatMap String.utf8EncodeChar) = cs := by
  induction cs with
  | nil => simp [decode]
  | cons c cs ih =>
    have hnext := next_encoded c (cs.flatMap String.utf8EncodeChar)
    obtain ⟨b, tail, hc, hdrop⟩ := utf8EncodeChar_eq_cons c
    rw [hc, List.cons_append] at hnext
    rw [List.flatMap_cons, hc, List.cons_append, decode, hnext]
    simp only [hdrop, ih]

theorem newline_mem_encode {s : String} : Lines.newline ∈ encode s ↔ '\n' ∈ s.toList := by
  simp [encode, newline_mem_utf8EncodeChar]

/-! ## The order of texts -/

/-- Bytes in front of texts decide their order, if they are different. -/
theorem cons_ofNat_lt {v w : Nat} (hw : w < 256) {r r' : Bytes} (hle : v ≤ w)
    (h : v = w → r < r') : UInt8.ofNat v :: r < UInt8.ofNat w :: r' := by
  rcases Nat.lt_or_eq_of_le hle with hlt | rfl
  · refine List.Lex.rel ?_
    rwa [UInt8.lt_iff_toNat_lt, UInt8.toNat_ofNat_of_lt' (Nat.lt_trans hlt hw),
      UInt8.toNat_ofNat_of_lt' hw]
  · exact List.Lex.cons (h rfl)

/-- The bytes of characters are in the order of the characters, whatever follows them. -/
theorem utf8EncodeChar_append_lt {c d : Char} (h : c < d) (r r' : Bytes) :
    String.utf8EncodeChar c ++ r < String.utf8EncodeChar d ++ r' := by
  have hlt : c.val.toNat < d.val.toNat := h
  have hd : d.val.toNat < 1114112 := by
    rcases d.valid with h | ⟨_, h⟩ <;> omega
  simp only [String.utf8EncodeChar]
  generalize c.val.toNat = v at hlt ⊢
  generalize d.val.toNat = w at hlt hd ⊢
  -- Equal bytes are compared with the next ones; all bytes equal would make the characters equal.
  split_ifs <;> simp only [List.cons_append, List.nil_append] <;>
    repeat' first | omega | refine cons_ofNat_lt (by omega) (by omega) fun _ => ?_

theorem flatMap_utf8EncodeChar_lt {cs ds : List Char} (h : cs < ds) :
    cs.flatMap String.utf8EncodeChar < ds.flatMap String.utf8EncodeChar := by
  induction h with
  | @nil c rest =>
    obtain ⟨b, tail, hc, -⟩ := utf8EncodeChar_eq_cons c
    rw [List.flatMap_cons, hc]
    exact List.Lex.nil
  | rel hcd =>
    rw [List.flatMap_cons, List.flatMap_cons]
    exact utf8EncodeChar_append_lt hcd _ _
  | cons _ ih =>
    rw [List.flatMap_cons, List.flatMap_cons]
    exact List.append_left_lt ih

/-- Encoded texts are in the order of the texts. -/
theorem encode_lt_encode {s t : String} (h : s < t) : encode s < encode t :=
  flatMap_utf8EncodeChar_lt h

end Utf8

end AssignOnce
