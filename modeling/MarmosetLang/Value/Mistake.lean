import MarmosetLang.Builtin
import MarmosetLang.Number.Decimal
import MarmosetLang.Value.Tag

/-!
# Mistakes

What can go wrong while a program runs.  A mistake is a cause, and its wording is given by
`Mistake.message` alone.
-/

namespace MarmosetLang

/-- A cause of error. -/
inductive Mistake where
  /-- A name that neither a scope nor the builtin functions know. -/
  | unknownName (name : String)
  /-- An operator that means nothing before an operand of this sort. -/
  | unknownPrefix (operator : String) (operand : Tag)
  /-- An operator that means nothing between operands of these sorts. -/
  | unknownInfix (operator : String) (left right : Tag)
  /-- Operands of different sorts around an operator. -/
  | mismatch (operator : String) (left right : Tag)
  /-- A quotient of zero parts. -/
  | divisionByZero
  /-- A call of what is no function. -/
  | notCallable (callee : Tag)
  /-- A key that no hash can hold. -/
  | unusableKey (key : Tag)
  /-- A selection from what has no elements, or by a position of the wrong sort. -/
  | notIndexable (container : Tag)
  /-- The wrong number of arguments for a builtin function. -/
  | wrongArity (got want : Nat)
  /-- An argument that had to be an array. -/
  | notArray (builtin : Builtin) (argument : Tag)
  /-- An argument without a length. -/
  | noLength (argument : Tag)
  /-- A mistake in words of its own. -/
  | stated (message : String)
deriving DecidableEq, Repr

/-- The wording of a mistake. -/
def Mistake.message : Mistake → String
  | unknownName name => "identifier not found: " ++ name
  | unknownPrefix operator operand => "unknown operator: " ++ operator ++ operand.name
  | unknownInfix operator left right =>
      "unknown operator: " ++ left.name ++ " " ++ operator ++ " " ++ right.name
  | mismatch operator left right =>
      "type mismatch: " ++ left.name ++ " " ++ operator ++ " " ++ right.name
  | divisionByZero => "division by zero"
  | notCallable callee => "not a function: " ++ callee.name
  | unusableKey key => "unusable as hash key: " ++ key.name
  | notIndexable container => "index operator not supported: " ++ container.name
  | wrongArity got want =>
      "wrong number of arguments: got=" ++ Decimal.ofNat got ++ ", want=" ++ Decimal.ofNat want
  | notArray builtin argument =>
      "argument to `" ++ builtin.name ++ "` must be ARRAY, got=" ++ argument.name
  | noLength argument => "argument to `len` not supported, got=" ++ argument.name
  | stated message => message

end MarmosetLang
