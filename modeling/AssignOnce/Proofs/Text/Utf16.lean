import AssignOnce.Editor.Position
import Mathlib.Data.List.Basic

/-!
# Text in UTF-16 code units

An editor holds a text as code units. A character below 0x10000 is one unit, any other one is a pair
of surrogates (`Utf16.encodeChar`). Lines are what newlines separate, and `Utf16.offsetAt` is the
index of a position: a line past the last one counts as the end of the text, a character past the
end of its line as that end, and an index inside a pair as the one behind it.
-/

namespace AssignOnce

/-- Text as an editor holds it. -/
abbrev Units := List UInt16

namespace Utf16

/-- The unit that ends a line. -/
def newline : UInt16 := 10

/-- The first unit of a pair, with the upper ten bits of a character. -/
def high (c : Char) : UInt16 := UInt16.ofNat (0xD800 + (c.toNat - 0x10000) / 0x400)

/-- The second unit of a pair, with the lower ten bits of a character. -/
def low (c : Char) : UInt16 := UInt16.ofNat (0xDC00 + (c.toNat - 0x10000) % 0x400)

/-- The code units of a character. -/
def encodeChar (c : Char) : Units :=
  if c.toNat < 0x10000 then [UInt16.ofNat c.toNat] else [high c, low c]

/-- The code units of a text. -/
def encode (s : String) : Units :=
  s.toList.flatMap encodeChar

/-- Whether a unit is the first one of a pair. -/
def isHigh (u : UInt16) : Bool := 0xD800 ≤ u && u < 0xDC00

/-- Whether a unit is the second one of a pair. -/
def isLow (u : UInt16) : Bool := 0xDC00 ≤ u && u < 0xE000

/-- Whether an index lies inside a pair. -/
def splitsPair (units : Units) : Nat → Bool
  | 0 => false
  | i + 1 => units[i]?.any isHigh && units[i + 1]?.any isLow

/-- The index at or behind a character of a line that lies inside no pair. -/
def column (line : Units) (character : Nat) : Nat :=
  let i := min character line.length
  if splitsPair line i then i + 1 else i

/-- The index of a position. -/
def offsetAt (text : Units) (p : Position) : Nat :=
  let lines := text.splitOn newline
  match lines[p.line]? with
  | none => text.length
  | some line =>
    ((lines.take p.line).flatMap (· ++ [newline])).length + column line p.character

/-! ## Units of characters -/

theorem encode_ofList (cs : List Char) :
    encode (String.ofList cs) = cs.flatMap encodeChar := by
  simp [encode]

theorem encodeChar_of_lt {c : Char} (hc : c.toNat < 0x10000) :
    encodeChar c = [UInt16.ofNat c.toNat] := if_pos hc

theorem encodeChar_of_le {c : Char} (hc : 0x10000 ≤ c.toNat) :
    encodeChar c = [high c, low c] := if_neg (by omega)

@[simp] theorem length_encodeChar (c : Char) : (encodeChar c).length = utf16Units c := by
  unfold encodeChar utf16Units
  split <;> rfl

theorem toNat_lt (c : Char) : c.toNat < 0x110000 := by
  rcases c.valid with h | ⟨-, h⟩
  · exact Nat.lt_trans h (by decide)
  · exact h

theorem toNat_single {c : Char} (hc : c.toNat < 0x10000) :
    (UInt16.ofNat c.toNat).toNat = c.toNat := by
  rw [UInt16.toNat_ofNat', Nat.mod_eq_of_lt (by omega)]

theorem toNat_high (c : Char) : (high c).toNat = 0xD800 + (c.toNat - 0x10000) / 0x400 := by
  have := toNat_lt c
  rw [high, UInt16.toNat_ofNat', Nat.mod_eq_of_lt (by omega)]

theorem toNat_low (c : Char) : (low c).toNat = 0xDC00 + (c.toNat - 0x10000) % 0x400 := by
  rw [low, UInt16.toNat_ofNat', Nat.mod_eq_of_lt (by omega)]

theorem isHigh_iff (u : UInt16) : isHigh u ↔ 0xD800 ≤ u.toNat ∧ u.toNat < 0xDC00 := by
  simp [isHigh, UInt16.le_iff_toNat_le, UInt16.lt_iff_toNat_lt]

theorem isLow_iff (u : UInt16) : isLow u ↔ 0xDC00 ≤ u.toNat ∧ u.toNat < 0xE000 := by
  simp [isLow, UInt16.le_iff_toNat_le, UInt16.lt_iff_toNat_lt]

/-- No character is a surrogate by itself. -/
theorem not_isHigh_single {c : Char} (hc : c.toNat < 0x10000) :
    ¬ isHigh (UInt16.ofNat c.toNat) := by
  rw [isHigh_iff, toNat_single hc]
  rcases c.valid with h | ⟨h, -⟩
  · have : c.toNat < 0xD800 := h
    omega
  · have : 0xDFFF < c.toNat := h
    omega

theorem isHigh_high (c : Char) : isHigh (high c) := by
  have := toNat_lt c
  rw [isHigh_iff, toNat_high]
  omega

theorem isLow_low (c : Char) : isLow (low c) := by
  rw [isLow_iff, toNat_low]
  omega

theorem not_isHigh_low (c : Char) : ¬ isHigh (low c) := by
  rw [isHigh_iff, toNat_low]
  omega

theorem encodeChar_newline : encodeChar '\n' = [newline] := by decide

theorem newline_mem_encodeChar {c : Char} : newline ∈ encodeChar c ↔ c = '\n' := by
  constructor
  · intro h
    by_cases hc : c.toNat < 0x10000
    · rw [encodeChar_of_lt hc, List.mem_singleton] at h
      have hn : c.toNat = 10 := by rw [← toNat_single hc, ← h]; rfl
      exact Char.toNat_inj.1 hn
    · rw [encodeChar_of_le (by omega)] at h
      simp only [List.mem_cons, List.not_mem_nil, or_false] at h
      rcases h with h | h
      · have := (congrArg UInt16.toNat h).trans (toNat_high c)
        rw [show newline.toNat = 10 from rfl] at this
        omega
      · have := (congrArg UInt16.toNat h).trans (toNat_low c)
        rw [show newline.toNat = 10 from rfl] at this
        omega
  · rintro rfl
    decide

/-! ## Columns -/

@[simp] theorem column_zero (line : Units) : column line 0 = 0 := by
  simp [column, splitsPair]

@[simp] theorem column_nil (n : Nat) : column [] n = 0 := by
  simp [column, splitsPair]

theorem utf16Units_of_lt {c : Char} (hc : c.toNat < 0x10000) : utf16Units c = 1 := if_pos hc

theorem utf16Units_of_le {c : Char} (hc : 0x10000 ≤ c.toNat) : utf16Units c = 2 :=
  if_neg (by omega)

/-- A pair begins only with a high surrogate, so other units can be left out in front. -/
theorem splitsPair_cons {u : UInt16} (hu : ¬ isHigh u) (us : Units) (i : Nat) :
    splitsPair (u :: us) (i + 1) = splitsPair us i := by
  cases i with
  | zero => simp [splitsPair, hu]
  | succ i => simp [splitsPair]

theorem splitsPair_pair {u v : UInt16} (hu : isHigh u) (hv : isLow v) (us : Units) :
    splitsPair (u :: v :: us) 1 := by
  simp [splitsPair, hu, hv]

/-- An index behind a character lies inside a pair if it does so in the units behind the
character: no pair begins with the last unit of a character. -/
theorem splitsPair_encodeChar_append (c : Char) (us : Units) (i : Nat) :
    splitsPair (encodeChar c ++ us) (i + utf16Units c) = splitsPair us i := by
  by_cases hc : c.toNat < 0x10000
  · rw [encodeChar_of_lt hc, utf16Units_of_lt hc]
    exact splitsPair_cons (not_isHigh_single hc) us i
  · rw [encodeChar_of_le (by omega), utf16Units_of_le (by omega)]
    have hskip : splitsPair (high c :: low c :: us) (i + 1 + 1) =
        splitsPair (low c :: us) (i + 1) := by
      simp only [splitsPair, List.getElem?_cons_succ]
    exact hskip.trans (splitsPair_cons (not_isHigh_low c) us i)

theorem splitsPair_one {c : Char} (hc : 0x10000 ≤ c.toNat) (us : Units) :
    splitsPair (encodeChar c ++ us) 1 := by
  rw [encodeChar_of_le hc]
  exact splitsPair_pair (isHigh_high c) (isLow_low c) us

/-- A count of units reaches behind the first character of a line, or into it and is moved behind
it. -/
theorem column_encodeChar_append (c : Char) (us : Units) {n : Nat} (hn : n ≠ 0) :
    column (encodeChar c ++ us) n = utf16Units c + column us (n - utf16Units c) := by
  by_cases hle : utf16Units c ≤ n
  · obtain ⟨m, rfl⟩ := Nat.exists_eq_add_of_le' hle
    have hmin : min (m + utf16Units c) (encodeChar c ++ us).length =
        min m us.length + utf16Units c := by
      rw [List.length_append, length_encodeChar]
      omega
    simp only [column, hmin, splitsPair_encodeChar_append, Nat.add_sub_cancel]
    split <;> omega
  · -- only a pair is longer than a positive count
    have hc : 0x10000 ≤ c.toNat := by
      by_contra hlt
      rw [utf16Units_of_lt (by omega)] at hle
      omega
    have hunits := utf16Units_of_le hc
    obtain rfl : n = 1 := by omega
    have hmin : min 1 (encodeChar c ++ us).length = 1 := by
      rw [List.length_append, length_encodeChar]
      omega
    simp only [column, hmin, splitsPair_one hc us, if_true, hunits]
    simp [splitsPair]

example : offsetAt (encode "a\n😀b") ⟨1, 1⟩ = 4 := by decide +kernel

end Utf16

end AssignOnce
