import StackScript.Tree

/-!
# Canonical Text

The text of a tree in which every operator has its parentheses, so that it shows how precedence
was resolved: `1 + 2 * 3` becomes `(1 + (2 * 3))`. Literals are written by their tokens, a
string by its bare content. Bindings and returns end in a semicolon, expressions in nothing.

## Main definitions

* `Expr.text`, `Block.text`, `Statement.text`, `Program.text`: the text of each node.

## Main results

* `Program.textAfter_eq`: the text of a list is the texts of its statements, in order.
-/

namespace StackScript

/-- The names, separated by commas. -/
def Name.listText (names : List Name) : String :=
  ", ".intercalate (names.map Name.text)

mutual

/-- The text of an expression. -/
@[simp] def Expr.text : Expr → String
  | .name n => n.text
  | .integer token _ | .float token _ | .string token _ | .boolean token _ => token.literal
  | .unary _ operator operand => "(" ++ operator ++ operand.text ++ ")"
  | .binary _ left operator right =>
    "(" ++ left.text ++ " " ++ operator ++ " " ++ right.text ++ ")"
  | .conditional _ condition consequence none =>
    "if (" ++ condition.text ++ ") " ++ consequence.text
  | .conditional _ condition consequence (some alternative) =>
    "if (" ++ condition.text ++ ") " ++ consequence.text ++ " else " ++ alternative.text
  | .function token parameters body =>
    token.literal ++ "(" ++ Name.listText parameters ++ ") " ++ body.text
  | .call _ callee arguments =>
    callee.text ++ "(" ++ Expr.listTextAfter "" arguments ++ ")"

/-- A text and then the texts of the expressions, separated by commas. -/
@[simp] def Expr.listTextAfter (before : String) : List Expr → String
  | [] => before
  | [last] => before ++ last.text
  | e :: rest => Expr.listTextAfter (before ++ e.text ++ ", ") rest

/-- The text of a block. -/
@[simp] def Block.text : Block → String
  | .mk _ statements => Program.textAfter "\x7b " statements ++ " \x7d"

/-- The text of a statement. -/
@[simp] def Statement.text : Statement → String
  | .binding token name value => token.literal ++ " " ++ name.text ++ " = " ++ value.text ++ ";"
  | .returning token value => token.literal ++ " " ++ value.text ++ ";"
  | .expression _ value => value.text
  | .block b => b.text

/-- A text and then the texts of the statements. -/
@[simp] def Program.textAfter (before : String) : List Statement → String
  | [] => before
  | s :: rest => Program.textAfter (before ++ s.text) rest

end

/-- The text of a program. -/
def Program.text (p : Program) : String :=
  Program.textAfter "" p

/-- The text of a list is the texts of its statements, in order. -/
theorem Program.textAfter_eq (before : String) (p : List Statement) :
    Program.textAfter before p = before ++ String.join (p.map Statement.text) := by
  induction p generalizing before with
  | nil => simp
  | cons s rest ih => simp [ih, String.append_assoc]

end StackScript
