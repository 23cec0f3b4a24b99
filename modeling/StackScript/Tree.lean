import StackScript.Number.Binary64
import StackScript.Token

/-!
# Program Trees

A program is a list of statements. Every node keeps the token that introduced it, and beside it
what the token means: a name, a number, a text, an operator. In a tree that was read from a
source the two agree; a tree built by hand need not, and it is then the meaning that counts.

## Main definitions

* `Expr`, `Block`, `Statement`, `Program`: the nodes.
* `Expr.kindName`: what messages call an expression.
* `Program.endsInExpression`: whether running a program leaves a result.
-/

namespace StackScript

/-- A name and its token. -/
structure Name where
  token : Token
  text : String
  deriving DecidableEq, Inhabited, Repr

mutual

/-- An expression. -/
inductive Expr
  | name (name : Name)
  | integer (token : Token) (value : Int64)
  | float (token : Token) (value : Binary64)
  | string (token : Token) (value : String)
  | boolean (token : Token) (value : Bool)
  /-- An operator before its operand. -/
  | unary (token : Token) (operator : String) (operand : Expr)
  /-- An operator between its operands, which is also the node's token. -/
  | binary (token : Token) (left : Expr) (operator : String) (right : Expr)
  /-- A conditional. -/
  | conditional (token : Token) (condition : Expr) (consequence : Block)
      (alternative : Option Block)
  /-- A function literal. -/
  | function (token : Token) (parameters : List Name) (body : Block)
  /-- A call; the token is its opening parenthesis. -/
  | call (token : Token) (callee : Expr) (arguments : List Expr)

/-- Statements between braces; the token is the opening brace. -/
inductive Block
  | mk (token : Token) (statements : List Statement)

/-- A statement. -/
inductive Statement
  /-- Binds a name to a value. -/
  | binding (token : Token) (name : Name) (value : Expr)
  /-- Returns a value. -/
  | returning (token : Token) (value : Expr)
  /-- An expression by itself; the token is its first. -/
  | expression (token : Token) (value : Expr)
  /-- A nested block. -/
  | block (block : Block)

end

instance : Inhabited Expr := ⟨.name default⟩
instance : Inhabited Statement := ⟨.expression default default⟩
instance : Inhabited Block := ⟨.mk default []⟩

/-- A program. -/
abbrev Program := List Statement

namespace Block

/-- The opening brace. -/
def token : Block → Token
  | mk token _ => token

/-- The statements between the braces. -/
def statements : Block → List Statement
  | mk _ statements => statements

end Block

namespace Expr

/-- The token that introduced an expression. -/
def token : Expr → Token
  | name n => n.token
  | integer token _ | float token _ | string token _ | boolean token _ => token
  | unary token _ _ | binary token _ _ _ => token
  | conditional token _ _ _ | function token _ _ | call token _ _ => token

/-- What messages call an expression. -/
def kindName : Expr → String
  | name _ => "identifier"
  | integer _ _ => "integer literal"
  | float _ _ => "float literal"
  | string _ _ => "string literal"
  | boolean _ _ => "boolean literal"
  | unary _ _ _ => "prefix expression"
  | binary _ _ _ _ => "infix expression"
  | conditional _ _ _ _ => "if expression"
  | function _ _ _ => "function literal"
  | call _ _ _ => "call expression"

/-- Only names and function literals may be called. -/
def isCallable : Expr → Bool
  | name _ | function _ _ _ => true
  | _ => false

end Expr

namespace Statement

/-- The token that introduced a statement. -/
def token : Statement → Token
  | binding token _ _ | returning token _ | expression token _ => token
  | block b => b.token

end Statement

mutual

/-- Whether the last statement is an expression, at the end of any blocks that end the list. -/
def Statement.endsInExpression : Statement → Bool
  | .expression _ _ => true
  | .block (.mk _ statements) => Program.endsInExpression statements
  | .binding _ _ _ | .returning _ _ => false

/-- Whether running the statements leaves a result: the last is an expression, or a block that
ends in one. -/
def Program.endsInExpression : List Statement → Bool
  | [] => false
  | [last] => last.endsInExpression
  | _ :: rest => Program.endsInExpression rest

end

namespace Program

/-- The literal of the first statement's token, empty for an empty program. -/
def tokenLiteral : Program → String
  | [] => ""
  | first :: _ => first.token.literal

end Program

end StackScript
