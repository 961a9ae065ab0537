import AssignOnce.Tree.Operator

/-!
# The grammar of expressions

Binary operators have five binding strengths and group from the left, operators in front of a single
operand bind more strongly than all of them, and parentheses group as they are written. What an
operand is made of does not matter here: it is a single token.

* `Expression.Reads`: the grammar, with a level that says which operators may stand outside of
  parentheses;
* `Expression.parse?`: a parser that keeps what it cannot group yet on a stack;
* `Expression.Reads.unique`: the grammar reads a list of tokens in one way only, since the parser
  finds whatever it reads (`Expression.parse?_of_reads`).
-/

namespace AssignOnce

/-- A piece of an expression. -/
inductive Token where
  /-- An operand as it is written. -/
  | operand (text : String)
  /-- An operator or a parenthesis. -/
  | operator (op : Operator)
  deriving DecidableEq, Repr

/-- An expression as it is grouped. -/
inductive Expression where
  | operand (text : String)
  | paren (e : Expression)
  | unary (op : Operator) (e : Expression)
  | binary (op : Operator) (left right : Expression)
  deriving DecidableEq, Repr

namespace Operator

/-- Whether an operator can stand in front of a single operand. -/
def isUnary : Operator → Bool
  | .arithmetic .add | .arithmetic .sub | .arithmetic .xor | .arithmetic .and | .arithmetic .mul
  | .not | .arrow | .tilde => true
  | _ => false

/-- The strength with which an operator in front of an operand binds. -/
def unaryPrecedence : Nat := 6

theorem precedence_lt (op : Operator) : op.precedence < unaryPrecedence := by
  unfold precedence
  split
  · rename_i a
    cases a <;> decide
  all_goals decide

end Operator

namespace Expression

open Operator (unaryPrecedence)

/-! ## The grammar -/

/-- How tokens are read as an expression in which only operators of some strength or more stand
outside of parentheses. -/
inductive Reads : Nat → List Token → Expression → Prop
  | operand (text : String) : Reads unaryPrecedence [.operand text] (.operand text)
  | paren {ts : List Token} {e : Expression} : Reads 1 ts e →
      Reads unaryPrecedence (.operator .leftParen :: (ts ++ [.operator .rightParen])) (.paren e)
  | unary {op : Operator} {ts : List Token} {e : Expression} : op.isUnary →
      Reads unaryPrecedence ts e → Reads unaryPrecedence (.operator op :: ts) (.unary op e)
  /-- The right operand binds more strongly, so that operators group from the left. -/
  | binary {op : Operator} {ls rs : List Token} {l r : Expression} : 0 < op.precedence →
      Reads op.precedence ls l → Reads (op.precedence + 1) rs r →
      Reads op.precedence (ls ++ .operator op :: rs) (.binary op l r)
  | weaken {p : Nat} {ts : List Token} {e : Expression} : Reads (p + 1) ts e → Reads p ts e

/-- The strength of the operator that is applied last, outside of parentheses. -/
def level : Expression → Nat
  | .binary op _ _ => op.precedence
  | _ => unaryPrecedence

variable {p q : Nat} {ts : List Token} {e : Expression}

theorem Reads.mono (h : Reads p ts e) (hq : q ≤ p) : Reads q ts e := by
  induction hq with
  | refl => exact h
  | step _ ih => exact ih h.weaken

/-- An expression is read at the level of its last operator. -/
theorem Reads.at_level (h : Reads p ts e) : Reads e.level ts e := by
  induction h with
  | operand text => exact .operand text
  | paren h => exact .paren h
  | unary hop h => exact .unary hop h
  | binary hop hl hr => exact .binary hop hl hr
  | weaken _ ih => exact ih

/-! ## The parser -/

/-- What has been read in front of an operand and waits for it. -/
inductive Frame where
  | paren
  | unary (op : Operator)
  | binary (op : Operator) (left : Expression)
  deriving DecidableEq, Repr

/-- The strength that an operand must exceed to be the right operand of the last frame. -/
def bound : List Frame → Nat
  | .unary _ :: _ => unaryPrecedence - 1
  | .binary op _ :: _ => op.precedence
  | _ => 0

/-- Groups an operand with the frames in front of an operator, as far as they bind at least as
strongly. -/
def close (p : Nat) : List Frame → Expression → List Frame × Expression
  | .unary op :: stack, e => close p stack (.unary op e)
  | .binary op l :: stack, e =>
    if p ≤ op.precedence then close p stack (.binary op l e) else (.binary op l :: stack, e)
  | stack, e => (stack, e)

/-- How far the parser is: in front of an operand, or behind one. -/
inductive State where
  | expecting (stack : List Frame)
  | holding (stack : List Frame) (e : Expression)
  deriving DecidableEq, Repr

/-- Reads the next token. -/
def step : State → Token → Option State
  | .expecting stack, .operand text => some (.holding stack (.operand text))
  | .expecting stack, .operator op =>
    if op = .leftParen then some (.expecting (.paren :: stack))
    else if op.isUnary then some (.expecting (.unary op :: stack))
    else none
  | .holding stack e, .operator op =>
    if op = .rightParen then
      match close 1 stack e with
      | (.paren :: stack, e) => some (.holding stack (.paren e))
      | _ => none
    else if 0 < op.precedence then
      some (.expecting (.binary op (close op.precedence stack e).2 ::
        (close op.precedence stack e).1))
    else none
  | .holding _ _, .operand _ => none

/-- Reads an expression. -/
def parse? (ts : List Token) : Option Expression :=
  match ts.foldlM step (.expecting []) with
  | some (.holding stack e) =>
    match close 1 stack e with
    | ([], e) => some e
    | _ => none
  | _ => none

/-- An operator closes no frame that binds less strongly than it. -/
theorem close_of_bound_lt {stack : List Frame} (h : bound stack < p) (hp : p < unaryPrecedence)
    (e : Expression) : close p stack e = (stack, e) := by
  match stack with
  | [] => rfl
  | .paren :: _ => rfl
  | .unary _ :: _ =>
    simp only [bound] at h
    omega
  | .binary op l :: _ =>
    simp only [bound] at h
    rw [close, if_neg (by omega)]

/-- What the grammar reads at a level takes the parser behind it, with frames that are grouped to
the expression by any operator that binds no more strongly. -/
theorem Reads.foldlM_step (h : Reads p ts e) (stack : List Frame) (hs : bound stack < p) :
    ∃ stack' x, ts.foldlM step (.expecting stack) = some (.holding stack' x) ∧
      ∀ q ≤ p, close q stack' x = close q stack e := by
  induction h generalizing stack with
  | operand text => exact ⟨stack, .operand text, rfl, fun _ _ => rfl⟩
  | @paren ts e h ih =>
    obtain ⟨stack', x, hrun, hclose⟩ := ih (.paren :: stack) Nat.one_pos
    have hparen : close 1 stack' x = (.paren :: stack, e) := hclose 1 (Nat.le_refl 1)
    refine ⟨stack, .paren e, ?_, fun _ _ => rfl⟩
    simp [List.foldlM_append, step, hrun, hparen]
  | @unary op ts e hop h ih =>
    have hne : op ≠ .leftParen := by
      rintro rfl
      cases hop
    obtain ⟨stack', x, hrun, hclose⟩ := ih (.unary op :: stack) (Nat.lt_succ_self 5)
    refine ⟨stack', x, ?_, hclose⟩
    simp [step, hne, hop, hrun]
  | @binary op ls rs l r hop hl hr ihl ihr =>
    have hne : op ≠ .rightParen := by
      rintro rfl
      cases hop
    obtain ⟨stackL, x, hrunL, hcloseL⟩ := ihl stack hs
    -- the left operand is complete once the operator comes, and nothing else is
    have hleft : close op.precedence stackL x = (stack, l) := by
      rw [hcloseL _ (Nat.le_refl _), close_of_bound_lt hs op.precedence_lt]
    obtain ⟨stackR, y, hrunR, hcloseR⟩ := ihr (.binary op l :: stack) (Nat.lt_succ_self _)
    refine ⟨stackR, y, ?_, fun q hq => ?_⟩
    · simp [List.foldlM_append, hrunL, step, hne, hop, hleft, hrunR]
    · rw [hcloseR q (by omega), close, if_pos hq]
  | weaken _ ih =>
    obtain ⟨stack', x, hrun, hclose⟩ := ih stack (Nat.lt_succ_of_lt hs)
    exact ⟨stack', x, hrun, fun q hq => hclose q (by omega)⟩

/-- The parser finds what the grammar reads. -/
theorem parse?_of_reads (h : Reads 1 ts e) : parse? ts = some e := by
  obtain ⟨stack, x, hrun, hclose⟩ := h.foldlM_step [] Nat.one_pos
  have hall : close 1 stack x = ([], e) := hclose 1 (Nat.le_refl 1)
  simp only [parse?, hrun, hall]

/-- `a - b - c` is grouped as `(a - b) - c`. -/
example : parse? [.operand "a", .operator (.arithmetic .sub), .operand "b",
    .operator (.arithmetic .sub), .operand "c"] =
      some (.binary (.arithmetic .sub)
        (.binary (.arithmetic .sub) (.operand "a") (.operand "b")) (.operand "c")) := by
  decide

/-- The grammar reads tokens in one way only. -/
theorem Reads.unique {e' : Expression} (h : Reads 1 ts e) (h' : Reads 1 ts e') : e = e' :=
  Option.some.inj ((parse?_of_reads h).symm.trans (parse?_of_reads h'))

end Expression

end AssignOnce
