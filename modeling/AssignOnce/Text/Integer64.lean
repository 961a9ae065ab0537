/-!
# Integers of 64 bits

Numbers in names, flags and settings are signed integers of 64 bits. A number is read only if it
fits (`Integer64.fits`); counting past the largest one goes on with the smallest one
(`Integer64.wrap`).
-/

namespace AssignOnce

namespace Integer64

/-- The number of integers of 64 bits. -/
def count : Nat := 18446744073709551616

/-- The largest integer of 64 bits. -/
def largest : Int := 9223372036854775807

/-- The smallest integer of 64 bits. -/
def smallest : Int := -9223372036854775808

/-- Whether an integer has 64 bits. -/
def fits (n : Int) : Bool :=
  smallest ≤ n && n ≤ largest

/-- The integer of 64 bits that differs from a number by a multiple of their count. -/
def wrap (n : Int) : Int :=
  Int.bmod n count

theorem fits_iff {n : Int} : fits n = true ↔ smallest ≤ n ∧ n ≤ largest := by
  simp [fits]

theorem fits_wrap (n : Int) : fits (wrap n) = true := by
  have hl : -(((count : Nat) : Int) / 2) ≤ wrap n := Int.le_bmod (by decide)
  have hu : wrap n < ((count : Nat) + 1 : Int) / 2 := Int.bmod_lt (by decide)
  rw [fits_iff]
  unfold smallest largest
  unfold count at hl hu
  omega

/-- A number that fits is not changed. -/
theorem wrap_of_fits {n : Int} (h : fits n = true) : wrap n = n := by
  obtain ⟨hl, hu⟩ := fits_iff.1 h
  unfold smallest at hl
  unfold largest at hu
  apply Int.bmod_eq_of_le <;> unfold count <;> omega

end Integer64

end AssignOnce
