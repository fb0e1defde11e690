import MarmosetLang.Token

/-!
# Syntax trees

Programs as the grammar builds them.  Every node keeps the token that introduced it, and a node
whose meaning is that token keeps nothing else: the name of an identifier, the text of a string, the
truth of a boolean and the sign of an operator are all read off the token.
-/

namespace MarmosetLang

mutual

/-- An expression. -/
inductive Expr where
  /-- A name. -/
  | identifier (token : Token)
  /-- An integer literal with the number it stands for. -/
  | integer (token : Token) (value : Nat)
  /-- A truth value. -/
  | boolean (token : Token)
  /-- A string literal. -/
  | string (token : Token)
  /-- An array literal, introduced by its bracket. -/
  | array (token : Token) (elements : List Expr)
  /-- A hash literal, introduced by its brace, with its pairs in written order. -/
  | hash (token : Token) (pairs : List (Expr × Expr))
  /-- An operator before its operand. -/
  | prefixed (operator : Token) (operand : Expr)
  /-- An operator between its operands. -/
  | infixed (operator : Token) (left right : Expr)
  /-- A choice between two blocks, the second of which may be missing. -/
  | conditional (token : Token) (condition : Expr) (consequence : Block)
      (alternative : Option Block)
  /-- A function literal with the names of its parameters. -/
  | function (token : Token) (parameters : List Token) (body : Block)
  /-- A call, introduced by its parenthesis. -/
  | call (token : Token) (callee : Expr) (arguments : List Expr)
  /-- The selection of an element, introduced by its bracket. -/
  | index (token : Token) (container position : Expr)

/-- Statements between braces, introduced by the opening one. -/
inductive Block where
  /-- The block of the given statements. -/
  | mk (token : Token) (statements : List Statement)

/-- A statement. -/
inductive Statement where
  /-- A name bound to a value. -/
  | binding (token name : Token) (value : Expr)
  /-- A value handed back from the enclosing function. -/
  | returning (token : Token) (value : Expr)
  /-- An expression that stands for itself, with its first token. -/
  | expression (token : Token) (value : Expr)

end

/-- The statements inside the braces. -/
def Block.statements : Block → List Statement
  | .mk _ statements => statements

/-- The statements of a whole text. -/
structure Program where
  /-- The statements in written order. -/
  statements : List Statement

end MarmosetLang
