import MarmosetLang.Tree

/-!
# Rendering

Trees are written with parentheses around every operator expression and every selection, so that the
shape of the tree shows in the text.  Statements stand one after another without a break.
-/

namespace MarmosetLang

mutual

/-- Write an expression with all its parentheses. -/
def Expr.render : Expr → String
  | .identifier token => token.literal
  | .integer token _ => token.literal
  | .boolean token => token.literal
  | .string token => token.literal
  | .array _ elements => "[" ++ ", ".intercalate (Expr.renderEach elements) ++ "]"
  | .hash _ pairs => "\x7b" ++ ", ".intercalate (Expr.renderPairs pairs) ++ "\x7d"
  | .prefixed operator operand => "(" ++ operator.literal ++ operand.render ++ ")"
  | .infixed operator left right =>
      "(" ++ left.render ++ " " ++ operator.literal ++ " " ++ right.render ++ ")"
  | .conditional _ condition consequence none =>
      "if" ++ condition.render ++ " " ++ consequence.render
  | .conditional _ condition consequence (some alternative) =>
      "if" ++ condition.render ++ " " ++ consequence.render ++ "else " ++ alternative.render
  | .function token parameters body =>
      token.literal ++ "(" ++ ", ".intercalate (parameters.map Token.literal) ++ ") " ++ body.render
  | .call _ callee arguments =>
      callee.render ++ "(" ++ ", ".intercalate (Expr.renderEach arguments) ++ ")"
  | .index _ container position => "(" ++ container.render ++ "[" ++ position.render ++ "])"

/-- Write each expression of a list. -/
def Expr.renderEach : List Expr → List String
  | [] => []
  | first :: rest => first.render :: Expr.renderEach rest

/-- Write each pair of a hash literal as its key, a colon and its value. -/
def Expr.renderPairs : List (Expr × Expr) → List String
  | [] => []
  | (key, value) :: rest => (key.render ++ ":" ++ value.render) :: Expr.renderPairs rest

/-- Write the statements of a block, braces left out. -/
def Block.render : Block → String
  | .mk _ statements => Statement.renderAll statements

/-- Write a statement.  An expression that stands for itself has no mark at its end. -/
def Statement.render : Statement → String
  | .binding _ name value => "let " ++ name.literal ++ " = " ++ value.render ++ ";"
  | .returning _ value => "return " ++ value.render ++ ";"
  | .expression _ value => value.render

/-- Write statements one after another. -/
def Statement.renderAll : List Statement → String
  | [] => ""
  | first :: rest => first.render ++ Statement.renderAll rest

end

/-- Write the statements of a program one after another. -/
def Program.render (program : Program) : String :=
  Statement.renderAll program.statements

end MarmosetLang
