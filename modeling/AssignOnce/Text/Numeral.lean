import AssignOnce.Text.Integer64

/-!
# Integers on the command line

An integer has an optional sign and then digits in base 10, or in base 2, 8 or 16 behind `0b`,
`0o` (or a plain `0`) and `0x`. Single underscores may separate digits, also behind the base.
`Numeral.parse` gives the value, or says that the text is no integer, or that the value does not
fit into 64 bits; reading stops at the first digit that makes the number too large.
-/

namespace AssignOnce

namespace Numeral

/-- What reading a number without its sign comes to. -/
inductive Magnitude where
  | malformed
  /-- The value has no 64 bits. -/
  | tooLarge
  | value (n : Nat)
  deriving DecidableEq, Repr

/-- What reading an integer comes to. -/
inductive Reading where
  | malformed
  /-- The value lies outside the range; the nearest end of the range is kept. -/
  | outOfRange (nearest : Int)
  | value (n : Int)
  deriving DecidableEq, Repr

/-- The value of a digit in any base. -/
def digit? (c : Char) : Option Nat :=
  if '0' ≤ c ∧ c ≤ '9' then some (c.toNat - '0'.toNat)
  else if 'a' ≤ c ∧ c ≤ 'z' then some (c.toNat - 'a'.toNat + 10)
  else if 'A' ≤ c ∧ c ≤ 'Z' then some (c.toNat - 'A'.toNat + 10)
  else none

/-- The base of a number and its digits without the mark of the base. -/
def base (cs : List Char) : Nat × List Char :=
  match cs with
  | '0' :: c :: d :: rest =>
    if c = 'b' ∨ c = 'B' then (2, d :: rest)
    else if c = 'o' ∨ c = 'O' then (8, d :: rest)
    else if c = 'x' ∨ c = 'X' then (16, d :: rest)
    else (8, c :: d :: rest)
  | '0' :: rest => (8, rest)
  | _ => (10, cs)

/-- The value of digits between which underscores stand, added to the digits before. -/
def digits (base : Nat) : Nat → List Char → Magnitude
  | n, [] => .value n
  | n, c :: rest =>
    if c = '_' then digits base n rest
    else
      match digit? c with
      | none => .malformed
      | some d =>
        if base ≤ d then .malformed
        else if Integer64.count ≤ n * base + d then .tooLarge
        else digits base (n * base + d) rest

/-- What stood in front of a character when underscores are checked. -/
inductive Before where
  | nothing
  | digit
  | underscore
  deriving DecidableEq, Repr

/-- Whether every underscore stands between two digits. -/
def separates : Before → List Char → Bool
  | b, [] => b != .underscore
  | b, c :: rest =>
    if c = '_' then b == .digit && separates .underscore rest
    else separates .digit rest

/-- Whether the underscores of a number without sign are in place; the mark of a base counts as a
digit. -/
def underscoresInPlace (cs : List Char) : Bool :=
  match cs with
  | '0' :: c :: rest =>
    if c.toLower = 'b' ∨ c.toLower = 'o' ∨ c.toLower = 'x' then separates .digit rest
    else separates .nothing cs
  | _ => separates .nothing cs

/-- The value of a number without sign. -/
def magnitude (cs : List Char) : Magnitude :=
  if cs = [] then .malformed
  else
    match digits (base cs).1 0 (base cs).2 with
    | .value n => if cs.contains '_' && !underscoresInPlace cs then .malformed else .value n
    | other => other

/-- A positive integer from its magnitude. -/
def positive : Magnitude → Reading
  | .malformed => .malformed
  | .tooLarge => .outOfRange Integer64.largest
  | .value n => if Integer64.largest < n then .outOfRange Integer64.largest else .value n

/-- A negative integer from its magnitude. -/
def negative : Magnitude → Reading
  | .malformed => .malformed
  | .tooLarge => .outOfRange Integer64.smallest
  | .value n =>
    if -(n : Int) < Integer64.smallest then .outOfRange Integer64.smallest else .value (-n)

/-- Reads an integer. -/
def parse (s : String) : Reading :=
  match s.toList with
  | '+' :: rest => positive (magnitude rest)
  | '-' :: rest => negative (magnitude rest)
  | cs => positive (magnitude cs)

end Numeral

end AssignOnce
