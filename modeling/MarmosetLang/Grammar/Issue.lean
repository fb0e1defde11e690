import MarmosetLang.Token

/-!
# Issues

What the grammar finds wrong, and where.  An issue is a cause together with the token at which it
was noticed; the wording lives in `Issue.message` alone.
-/

namespace MarmosetLang

/-- A cause of complaint. -/
inductive Fault where
  /-- Another kind of token had to come here. -/
  | expected (kind : Kind)
  /-- No expression can begin here. -/
  | noExpression
  /-- The numeral stands for a number too large to hold. -/
  | outOfRange
deriving DecidableEq, Repr

/-- A cause of complaint and the token that gave it. -/
structure Issue where
  /-- The cause. -/
  fault : Fault
  /-- The token at which it was noticed. -/
  token : Token
deriving DecidableEq, Repr

/-- The wording of an issue. -/
def Issue.message (issue : Issue) : String :=
  match issue.fault with
  | .expected kind =>
      "expected next token to be " ++ kind.name ++ ", got " ++ issue.token.kind.name ++ " instead"
  | .noExpression => "no prefix parse function found for " ++ issue.token.kind.name
  | .outOfRange => "could not parse \"" ++ issue.token.literal ++ "\" as integer"

end MarmosetLang
