import AssignOnce.Text.Integer64

/-!
# Numbers in settings

Numbers are written in decimal and kept as binary floating-point numbers of 64 bits, so a number is
an integer if the nearest floating-point number is one. Of two nearest ones the one with the even
significand is taken. A floating-point number stands for the decimal number with the fewest digits
that is read as it, and of several of these for the nearest one.
-/

namespace AssignOnce

/-- The decimal number `mantissa / 10 ^ exponent`. -/
structure Decimal where
  mantissa : Int
  exponent : Nat
  deriving DecidableEq, Repr

/-- The quotient of two numbers, rounded to the nearest integer, and to the even one of two. -/
def roundedQuotient (n d : Nat) : Nat :=
  let q := n / d
  let r := n % d
  if d < 2 * r ∨ d = 2 * r ∧ q % 2 = 1 then q + 1 else q

namespace Binary64

/-- The quotient of `n / d` by a power of two, as a fraction. -/
def scaled (n d : Nat) (power : Int) : Nat × Nat :=
  (n * Nat.pow 2 (-power).toNat, d * Nat.pow 2 power.toNat)

/-- The power of two by which a significand of 53 bits is multiplied to give about `n / d`. -/
def power (n d : Nat) : Int :=
  let guess : Int := n.log2 - d.log2 - 52
  let (a, b) := scaled n d guess
  max (-1074) (if a / b < Nat.pow 2 52 then guess - 1 else guess)

/-- The nearest floating-point number to `n / d`, if it is an integer. -/
def integer? (n d : Nat) : Option Nat :=
  let p := power n d
  let (a, b) := scaled n d p
  let significand := roundedQuotient a b
  if 0 ≤ p then some (significand * Nat.pow 2 p.toNat)
  else if significand % Nat.pow 2 (-p).toNat = 0 then
    some (significand / Nat.pow 2 (-p).toNat)
  else none

/-- The multiple of `10 ^ k` that is read as the integer `v`, the nearer one of two. -/
def onGrid? (v k : Nat) : Option Nat :=
  let unit := Nat.pow 10 k
  let low := v / unit * unit
  let high := low + unit
  let near := roundedQuotient v unit * unit
  let far := if near = low then high else low
  [near, far].find? fun n => integer? n 1 = some v

/-- The integer with the fewest digits in front of its final zeros that is read as the integer
`v`. Integers of 64 bits have at most 19 digits. -/
def shortest (v : Nat) : Nat :=
  ((List.range 20).reverse.findSome? (onGrid? v)).getD v

end Binary64

namespace Decimal

/-- The integer of 64 bits that a number stands for. -/
def int64? (x : Decimal) : Option Int :=
  if x.mantissa = 0 then some 0
  else
    match Binary64.integer? x.mantissa.natAbs (Nat.pow 10 x.exponent) with
    | none => none
    | some n =>
      let n := Binary64.shortest n
      let value : Int := if x.mantissa < 0 then -n else n
      if Integer64.fits value then some value else none

end Decimal

end AssignOnce
