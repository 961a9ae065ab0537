import AssignOnce.Fix.FreshName
import AssignOnce.Text.Identifier
import Mathlib.Data.List.TakeWhile

/-!
# Names with a number at the end

A name is a stem and the digits behind it (`Namer.splits`), and its candidates are the stem with
higher numbers. The numbers have 64 bits, so a candidate ends in the number counted up only as long
as that fits (`Namer.candidate_eq_iff`). Behind the largest number come negative ones, and their
sign is no character of an identifier: a candidate of an identifier is an identifier exactly if its
number is not negative (`Namer.isIdentifier_candidate_iff`).
-/

namespace AssignOnce

namespace Namer

variable {old : String} {k : Nat}

/-! ## Stems and numbers -/

/-- A name consists of a base that does not end in a digit, and of digits that give its number. A
number that does not fit into 64 bits counts as none. -/
def Splits (name base : String) (number : Nat) : Prop :=
  ∃ digits, name.toList = base.toList ++ digits ∧ (∀ c ∈ digits, c.isDigit) ∧
    (∀ c ∈ base.toList.getLast?, ¬ c.isDigit) ∧
    number = if Integer64.fits (Nat.ofDigitChars 10 digits 0) then Nat.ofDigitChars 10 digits 0
      else 0

theorem toList_stem (old : String) :
    (stem old).toList = (old.toList.reverse.dropWhile Char.isDigit).reverse :=
  String.toList_ofList

theorem toList_eq (old : String) : old.toList = (stem old).toList ++ trailingDigits old := by
  rw [toList_stem, trailingDigits, ← List.reverse_append, List.takeWhile_append_dropWhile,
    List.reverse_reverse]

theorem isDigit_of_mem_trailingDigits {c : Char} (hc : c ∈ trailingDigits old) : c.isDigit :=
  List.mem_takeWhile_imp (List.mem_reverse.1 hc)

theorem splits (old : String) : Splits old (stem old) (number old) := by
  refine ⟨trailingDigits old, toList_eq old, fun c => isDigit_of_mem_trailingDigits, ?_, rfl⟩
  intro c hc
  rw [toList_stem, List.getLast?_reverse] at hc
  have hhead := List.head?_dropWhile_not Char.isDigit old.toList.reverse
  rw [Option.mem_def.1 hc] at hhead
  simpa using hhead

/-! ## How numbers are written -/

/-- The digits of a number, without its sign. -/
def digitsOf (n : Int) : List Char := Nat.toDigits 10 n.natAbs

theorem digitsOf_ne_nil (n : Int) : digitsOf n ≠ [] := Nat.toDigits_ne_nil

theorem isDigit_of_mem_digitsOf {n : Int} {c : Char} (hc : c ∈ digitsOf n) : c.isDigit :=
  Nat.isDigit_of_mem_toDigits (by decide) (by decide) hc

theorem toList_toString (n : Int) :
    (toString n).toList = if 0 ≤ n then digitsOf n else '-' :: digitsOf n := by
  rw [Int.toString_eq_repr, Int.repr_eq_if, digitsOf]
  split
  · rw [Nat.toList_repr, show n.toNat = n.natAbs by omega]
  · rw [String.toList_append, Nat.toList_repr, show (-n).toNat = n.natAbs by omega]
    rfl

theorem toList_candidate (old : String) (k : Nat) :
    (candidate old k).toList = (stem old).toList ++
      (toString (Integer64.wrap (number old + k))).toList :=
  String.toList_append

/-- A number that is written like one that is not negative is that number. -/
theorem eq_of_toString_eq {n : Int} {m : Nat}
    (h : (toString n).toList = (toString (m : Int)).toList) : n = m := by
  rw [toList_toString, toList_toString, if_pos (Int.natCast_nonneg m)] at h
  split at h
  · have hread := congrArg (Nat.ofDigitChars 10 · 0) h
    simp only [digitsOf, Nat.ofDigitChars_ten_toDigits] at hread
    omega
  · -- a sign is no digit
    have hsign : '-' ∈ digitsOf m := h ▸ List.mem_cons_self
    exact absurd (isDigit_of_mem_digitsOf hsign) (by decide)

/-- A candidate ends in the number counted up as long as that fits into 64 bits. -/
theorem candidate_eq_iff :
    candidate old k = stem old ++ toString (number old + k) ↔
      (number old + k : Int) ≤ Integer64.largest := by
  rw [candidate, String.append_right_inj]
  constructor
  · intro h
    have hwrap : Integer64.wrap (number old + k) = ((number old + k : Nat) : Int) :=
      eq_of_toString_eq (congrArg String.toList h)
    have hfits := (Integer64.fits_iff.1 (Integer64.fits_wrap (number old + k))).2
    omega
  · intro h
    rw [Integer64.wrap_of_fits (Integer64.fits_iff.2 ⟨by unfold Integer64.smallest; omega, h⟩)]
    rfl

/-- A candidate has a digit. -/
theorem exists_isDigit_candidate (old : String) (k : Nat) :
    ∃ c ∈ (candidate old k).toList, c.isDigit := by
  obtain ⟨c, hc⟩ := List.exists_mem_of_ne_nil _ (digitsOf_ne_nil (Integer64.wrap (number old + k)))
  refine ⟨c, ?_, isDigit_of_mem_digitsOf hc⟩
  rw [toList_candidate, toList_toString]
  apply List.mem_append_right
  split
  · exact hc
  · exact List.mem_cons_of_mem _ hc

/-! ## Identifiers -/

/-- Whether a name is another one with the digits at its end replaced by digits. -/
def Renumbers (name old : String) : Prop :=
  ∃ digits, digits ≠ [] ∧ (∀ c ∈ digits, c.isDigit) ∧ name.toList = (stem old).toList ++ digits

/-- A candidate has nothing but digits behind the stem exactly if its number is not negative. -/
theorem renumbers_candidate_iff :
    Renumbers (candidate old k) old ↔ 0 ≤ Integer64.wrap (number old + k) := by
  constructor
  · rintro ⟨digits, -, hdigits, h⟩
    rw [toList_candidate, toList_toString, List.append_cancel_left_eq] at h
    by_contra hneg
    rw [if_neg hneg] at h
    have hsign : '-'.isDigit := hdigits '-' (h ▸ List.mem_cons_self)
    exact absurd hsign (by decide)
  · intro h
    refine ⟨digitsOf (Integer64.wrap (number old + k)), digitsOf_ne_nil _,
      fun c => isDigit_of_mem_digitsOf, ?_⟩
    rw [toList_candidate, toList_toString, if_pos h]

theorem toNat_of_isDigit {c : Char} (hc : c.isDigit) : 48 ≤ c.toNat ∧ c.toNat ≤ 57 := by
  simpa [Char.isDigit, UInt32.le_iff_toNat_le] using hc

theorem continuesIdentifier_of_isDigit {c : Char} (hc : c.isDigit) : continuesIdentifier c := by
  obtain ⟨hlow, hhigh⟩ := toNat_of_isDigit hc
  have hd : isDecimalDigit c := by
    unfold isDecimalDigit isDecimalDigitRanges Ranges.contains
    rw [if_neg (by omega), if_pos hhigh]
  simp [continuesIdentifier, hd]

/-- The ranges of letters begin behind the digits. -/
theorem not_startsIdentifier_of_isDigit {c : Char} (hc : c.isDigit) : ¬ startsIdentifier c := by
  obtain ⟨-, hhigh⟩ := toNat_of_isDigit hc
  have hl : isLetter c = false := by
    unfold isLetter isLetterRanges Ranges.contains
    rw [if_pos (by omega)]
  have hne : c ≠ '_' := by
    rintro rfl
    exact absurd hc (by decide)
  simp [startsIdentifier, hl, hne]

/-- An identifier has a stem, since it does not start with a digit. -/
theorem stem_of_isIdentifier (h : isIdentifier old) :
    ∃ c rest, (stem old).toList = c :: rest ∧ startsIdentifier c ∧
      ∀ d ∈ rest, continuesIdentifier d := by
  unfold isIdentifier at h
  cases hold : old.toList with
  | nil => simp [hold] at h
  | cons c chars =>
    simp only [hold, Bool.and_eq_true, List.all_eq_true] at h
    obtain ⟨⟨hc, hchars⟩, -⟩ := h
    have hsplit := toList_eq old
    rw [hold] at hsplit
    cases hs : (stem old).toList with
    | nil =>
      rw [hs, List.nil_append] at hsplit
      have hdigit : c ∈ trailingDigits old := hsplit ▸ List.mem_cons_self
      exact absurd hc (not_startsIdentifier_of_isDigit (isDigit_of_mem_trailingDigits hdigit))
    | cons d rest =>
      rw [hs, List.cons_append, List.cons.injEq] at hsplit
      obtain ⟨rfl, hrest⟩ := hsplit
      exact ⟨c, rest, rfl, hc, fun d hd => hchars d (hrest ▸ List.mem_append_left _ hd)⟩

/-- No keyword has a digit. -/
theorem not_isDigit_of_mem_keywords {word : String} (h : word ∈ keywords) {c : Char}
    (hc : c ∈ word.toList) : ¬ c.isDigit := by
  have hall : keywords.all fun word => word.toList.all (!·.isDigit) := by decide
  have hword := List.all_eq_true.1 hall word h
  simpa using List.all_eq_true.1 hword c hc

/-- A candidate of an identifier is an identifier exactly if its number is not negative. -/
theorem isIdentifier_candidate_iff (h : isIdentifier old) :
    isIdentifier (candidate old k) ↔ 0 ≤ Integer64.wrap (number old + k) := by
  obtain ⟨c, rest, hs, hc, hrest⟩ := stem_of_isIdentifier h
  have hkeyword : candidate old k ∉ keywords := by
    intro hmem
    obtain ⟨d, hd, hdigit⟩ := exists_isDigit_candidate old k
    exact not_isDigit_of_mem_keywords hmem hd hdigit
  have hlist := toList_candidate old k
  rw [hs, List.cons_append] at hlist
  have hword : isIdentifier (candidate old k) =
      (rest ++ (toString (Integer64.wrap (number old + k))).toList).all continuesIdentifier := by
    simp [isIdentifier, hlist, hc, hkeyword]
  rw [hword, List.all_eq_true]
  constructor
  · intro hall
    by_contra hneg
    -- the sign of the number would be a character of an identifier
    have hsign : '-' ∈ (toString (Integer64.wrap (number old + k))).toList := by
      rw [toList_toString, if_neg hneg]
      exact List.mem_cons_self
    exact absurd (hall '-' (List.mem_append_right rest hsign)) (by decide +kernel)
  · intro hpos d hd
    rw [toList_toString, if_pos hpos] at hd
    rcases List.mem_append.1 hd with hd | hd
    · exact hrest d hd
    · exact continuesIdentifier_of_isDigit (isDigit_of_mem_digitsOf hd)

end Namer

end AssignOnce
