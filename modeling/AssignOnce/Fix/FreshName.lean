import AssignOnce.Fix.Error
import AssignOnce.Program.Scope
import AssignOnce.Text.Integer64

/-!
# Names for new variables

The new name of a variable is its old name with a higher number at the end: `x` becomes `x1`, and
`x1` becomes `x2`. A `Namer` tries the numbers in order until it finds a name that it has not given
out before and that is not declared in the scope of the new variable, around it or below it.
Numbers are integers of 64 bits, so the number after the largest one is the smallest.
-/

namespace AssignOnce

/-- The names that have been given out, and how many candidates are tried for the next one. -/
structure Namer where
  tries : Nat
  reserved : List String
  deriving DecidableEq, Repr

namespace Namer

/-- The number of candidates when no positive limit is given. -/
def defaultTries : Nat := 1000

/-- A namer that has given out no name. -/
def ofLimit (limit : Int) : Namer :=
  { tries := if limit ≤ 0 then defaultTries else limit.toNat
    reserved := [] }

/-- Keeps a name from being given out. -/
def reserve (n : Namer) (name : String) : Namer :=
  { n with reserved := name :: n.reserved }

/-- The digits at the end of a name. -/
def trailingDigits (old : String) : List Char :=
  (old.toList.reverse.takeWhile Char.isDigit).reverse

/-- A name without the digits at its end. -/
def stem (old : String) : String :=
  String.ofList (old.toList.reverse.dropWhile Char.isDigit).reverse

/-- The number at the end of a name; a number that does not fit into 64 bits counts as none. -/
def number (old : String) : Nat :=
  let n := (trailingDigits old).foldl (fun n c => 10 * n + (c.toNat - '0'.toNat)) 0
  if Integer64.fits n then n else 0

/-- The candidate with the number that lies `k` above the number of a name. -/
def candidate (old : String) (k : Nat) : String :=
  stem old ++ toString (Integer64.wrap (number old + k))

/-- Whether a name cannot be given out for a scope. -/
def isTaken (n : Namer) (scopes : ScopeForest) (s : Nat) (name : String) : Bool :=
  n.reserved.contains name || scopes.visibleAround s name

/-- The first number from `k` on that has a property, if it is one of the next `tries` numbers. -/
def firstFrom (free : Nat → Bool) : (tries k : Nat) → Option Nat
  | 0, _ => none
  | tries + 1, k => if free k then some k else firstFrom free tries (k + 1)

/-- A new name for a variable that is to be declared in a scope. -/
def unique (n : Namer) (scopes : ScopeForest) (old : String) (s : Nat) :
    Except FixError (String × Namer) :=
  match firstFrom (fun k => !n.isTaken scopes s (candidate old k)) n.tries 1 with
  | some k => .ok (candidate old k, n.reserve (candidate old k))
  | none => .error (.namesExhausted old n.tries)

end Namer

end AssignOnce
