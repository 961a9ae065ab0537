import AssignOnce.Text.Utf8

/-!
# String literals

`Literal.value?` reads a string literal: a raw one between backquotes, of which only the carriage
returns are dropped, or one between double quotes with its escapes. Escapes of bytes may together
spell a character, so the value is put together as bytes first.
-/

namespace AssignOnce

namespace Literal

/-- The quote around literals with escapes. -/
def doubleQuote : Char := Char.ofNat 34

/-- The quote around raw literals. -/
def backQuote : Char := Char.ofNat 96

/-- The character that begins an escape. -/
def backslash : Char := Char.ofNat 92

/-- The value of a hexadecimal digit. -/
def hexDigit? (c : Char) : Option Nat :=
  if '0' ≤ c ∧ c ≤ '9' then some (c.toNat - '0'.toNat)
  else if 'a' ≤ c ∧ c ≤ 'f' then some (c.toNat - 'a'.toNat + 10)
  else if 'A' ≤ c ∧ c ≤ 'F' then some (c.toNat - 'A'.toNat + 10)
  else none

/-- The value of an octal digit. -/
def octalDigit? (c : Char) : Option Nat :=
  if '0' ≤ c ∧ c ≤ '7' then some (c.toNat - '0'.toNat) else none

/-- The number that exactly the first `count` characters spell in a base. -/
def digits? (base : Nat) (digit? : Char → Option Nat) (count : Nat) (cs : List Char) :
    Option Nat :=
  if (cs.take count).length = count then
    (cs.take count).foldlM (fun n c => (digit? c).map (base * n + ·)) 0
  else none

/-- The bytes of the character with a number, if there is one. -/
def scalar? (n : Nat) : Option Bytes :=
  if h : n.isValidChar then some (String.utf8EncodeChar (Char.ofNatAux n h)) else none

/-- The escapes of one letter. -/
def simpleEscapes : List (Char × UInt8) :=
  [('a', 7), ('b', 8), ('f', 12), ('n', 10), ('r', 13), ('t', 9), ('v', 11), (backslash, 92),
   (doubleQuote, 34)]

/-- The bytes of the escape that follows a backslash, and the number of characters it takes. -/
def escape? (cs : List Char) : Option (Bytes × Nat) :=
  match cs with
  | [] => none
  | c :: rest =>
    if c = 'x' then (digits? 16 hexDigit? 2 rest).map fun n => ([UInt8.ofNat n], 3)
    else if c = 'u' then ((digits? 16 hexDigit? 4 rest).bind scalar?).map (·, 5)
    else if c = 'U' then ((digits? 16 hexDigit? 8 rest).bind scalar?).map (·, 9)
    else if (octalDigit? c).isSome then
      match digits? 8 octalDigit? 3 cs with
      | some n => if n ≤ 255 then some ([UInt8.ofNat n], 3) else none
      | none => none
    else (simpleEscapes.lookup c).map fun b => ([b], 1)

/-- The bytes that the inside of a literal with escapes stands for. -/
def unescape? : List Char → Option Bytes
  | [] => some []
  | c :: rest =>
    if c = backslash then
      match escape? rest with
      | none => none
      | some (bytes, count) => (unescape? (rest.drop count)).map (bytes ++ ·)
    else if c = doubleQuote ∨ c = '\n' then none
    else (unescape? rest).map (String.utf8EncodeChar c ++ ·)
termination_by cs => cs.length
decreasing_by all_goals simp only [List.length_drop, List.length_cons]; omega

/-- What stands between a pair of quotes. -/
def inside? (quote : Char) (literal : List Char) : Option (List Char) :=
  match literal with
  | [] => none
  | c :: rest =>
    if c = quote ∧ rest.getLast? = some quote then some rest.dropLast else none

/-- The text that a literal stands for. -/
def value? (literal : String) : Option String :=
  match inside? backQuote literal.toList with
  | some raw =>
    if raw.contains backQuote then none else some (String.ofList (raw.filter (· != '\r')))
  | none =>
    match inside? doubleQuote literal.toList with
    | some body => (unescape? body).map Utf8.toString
    | none => none

end Literal

end AssignOnce
