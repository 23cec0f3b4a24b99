import StackScript.Token

/-!
# Precedence

How tightly operators bind, from the loosest to the tightest.

## Main definitions

* `Precedence` and its rank, `Precedence.level`.
* `Precedence.ofKind`: how tightly an operator token binds.
* `Precedence.onRight`: the level below which an operator's right operand ends.
-/

namespace StackScript

/-- Binding strengths, weakest first. -/
inductive Precedence
  /-- No operator. -/
  | lowest
  /-- `==` and `!=`. -/
  | equals
  /-- `<` and `>`. -/
  | lessGreater
  /-- `+` and `-`. -/
  | sum
  /-- `*` and `/`. -/
  | product
  /-- `**`. -/
  | power
  /-- `-x` and `!x`. -/
  | unary
  /-- `f(x)`. -/
  | call
  deriving DecidableEq, Inhabited, Repr

namespace Precedence

/-- The rank of a strength. -/
def level : Precedence → Nat
  | lowest => 0
  | equals => 1
  | lessGreater => 2
  | sum => 3
  | product => 4
  | power => 5
  | unary => 6
  | call => 7

/-- How tightly a token binds the expression before it; a token that is no operator does not. -/
def ofKind : TokenKind → Precedence
  | .equal | .notEqual => equals
  | .less | .greater => lessGreater
  | .plus | .minus => sum
  | .asterisk | .slash => product
  | .pow => power
  | .leftParen => call
  | _ => lowest

/-- The strength that an operator's right operand has to exceed. It is the operator's own, so
that a chain groups to the left, except that `**` admits itself and groups to the right. -/
def onRight (operator : TokenKind) : Precedence :=
  if operator = .pow then product else ofKind operator

end Precedence

end StackScript
