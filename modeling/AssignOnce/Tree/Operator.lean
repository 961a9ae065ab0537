/-!
# Operators

The operators of Go and their binding strength. An assignment operator such as `+=` updates its
left side by an arithmetic operator; `Operator.updating?` gives the operator that a statement
`x op= y` stands for in `x = x op y`, and `Operator.forOperands` the one that takes its place
when the operands are booleans.
-/

namespace AssignOnce

/-- The operators that an assignment operator can update by. -/
inductive Arithmetic where
  | add
  | sub
  | mul
  | quo
  | rem
  | and
  | or
  | xor
  | shl
  | shr
  | andNot
  deriving DecidableEq, Repr

namespace Arithmetic

/-- How an arithmetic operator is written. -/
def text : Arithmetic → String
  | .add => "+"
  | .sub => "-"
  | .mul => "*"
  | .quo => "/"
  | .rem => "%"
  | .and => "&"
  | .or => "|"
  | .xor => "^"
  | .shl => "<<"
  | .shr => ">>"
  | .andNot => "&^"

/-- The binding strength of an arithmetic operator. -/
def precedence : Arithmetic → Nat
  | .add | .sub | .or | .xor => 4
  | .mul | .quo | .rem | .shl | .shr | .and | .andNot => 5

end Arithmetic

/-- Operators and punctuation. -/
inductive Operator where
  | arithmetic (a : Arithmetic)
  /-- An assignment operator such as `+=`. -/
  | update (a : Arithmetic)
  | logicalAnd
  | logicalOr
  | equal
  | notEqual
  | less
  | lessEqual
  | greater
  | greaterEqual
  | assign
  /-- The sign `:=` of a short variable declaration. -/
  | define
  | increment
  | decrement
  | not
  | tilde
  | arrow
  | ellipsis
  | leftParen
  | rightParen
  | leftBracket
  | rightBracket
  | leftBrace
  | rightBrace
  | comma
  | period
  | semicolon
  | colon
  /-- No operator. -/
  | illegal
  deriving DecidableEq, Repr

namespace Operator

/-- How an operator is written. -/
def text : Operator → String
  | .arithmetic a => a.text
  | .update a => a.text ++ "="
  | .logicalAnd => "&&"
  | .logicalOr => "||"
  | .equal => "=="
  | .notEqual => "!="
  | .less => "<"
  | .lessEqual => "<="
  | .greater => ">"
  | .greaterEqual => ">="
  | .assign => "="
  | .define => ":="
  | .increment => "++"
  | .decrement => "--"
  | .not => "!"
  | .tilde => "~"
  | .arrow => "<-"
  | .ellipsis => "..."
  | .leftParen => "("
  | .rightParen => ")"
  | .leftBracket => "["
  | .rightBracket => "]"
  | .leftBrace => "\x7b"
  | .rightBrace => "\x7d"
  | .comma => ","
  | .period => "."
  | .semicolon => ";"
  | .colon => ":"
  | .illegal => "ILLEGAL"

/-- The arithmetic operators. -/
def arithmetics : List Arithmetic :=
  [.add, .sub, .mul, .quo, .rem, .and, .or, .xor, .shl, .shr, .andNot]

/-- Every operator that has a spelling in source code. -/
def all : List Operator :=
  arithmetics.map .arithmetic ++ arithmetics.map .update ++
  [.logicalAnd, .logicalOr, .equal, .notEqual, .less, .lessEqual, .greater, .greaterEqual, .assign,
   .define, .increment, .decrement, .not, .tilde, .arrow, .ellipsis, .leftParen, .rightParen,
   .leftBracket, .rightBracket, .leftBrace, .rightBrace, .comma, .period, .semicolon, .colon]

/-- The operator with a spelling. -/
def ofText (s : String) : Operator :=
  (all.find? (·.text == s)).getD .illegal

/-- The binding strength of an operator between two operands; what is no binary operator binds
with strength 0. -/
def precedence : Operator → Nat
  | .arithmetic a => a.precedence
  | .equal | .notEqual | .less | .lessEqual | .greater | .greaterEqual => 3
  | .logicalAnd => 2
  | .logicalOr => 1
  | _ => 0

/-- The operator by which an assignment operator updates its left side. -/
def updating? : Operator → Option Operator
  | .update a => some (.arithmetic a)
  | _ => none

/-- The operator to write between operands that are booleans or not: between booleans the
logical operator takes the place of the bitwise one. -/
def forOperands (boolean : Bool) : Operator → Operator
  | .arithmetic .and => if boolean then .logicalAnd else .arithmetic .and
  | .arithmetic .or => if boolean then .logicalOr else .arithmetic .or
  | op => op

/-- Whether a right operand with this outermost operator needs parentheses. -/
def parenthesizes (op inner : Operator) : Bool :=
  inner.precedence ≤ op.precedence

end Operator

end AssignOnce
