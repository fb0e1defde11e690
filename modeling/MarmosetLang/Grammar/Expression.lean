import MarmosetLang.Grammar.Rule
import MarmosetLang.Number.Decimal
import MarmosetLang.Tree

/-!
# The grammar of expressions and statements

Some kinds of tokens can begin an expression, and some can extend one that has been read; the latter
bind with a certain strength.  An expression is read up to the first token that binds no more
tightly than asked for.  The rules for nested expressions are written over an arbitrary rule
`nested` for them, which `expression` then puts in place: a nested expression begins on a shorter
stream.
-/

namespace MarmosetLang
namespace Grammar

/-- The strength with which everything binds. -/
def lowest : Nat := 1

/-- The strength with which the operand of a leading operator binds. -/
def operandStrength : Nat := 6

/-- The strength with which a token binds to the expression before it. -/
def strength : Kind → Nat
  | .equal | .notEqual => 2
  | .less | .greater => 3
  | .plus | .minus => 4
  | .asterisk | .slash => 5
  | .openParen | .openBracket => 7
  | _ => lowest

/-- The greatest number of digits that a numeral may have. -/
def maxDigits : Nat := 4300

/-- The greatest number that an integer literal may stand for, one below the 63rd power of two. -/
def maxInteger : Nat := 0x7fffffffffffffff

/-- Read the current token as an integer literal. -/
def integer : Rule Expr := do
  let token ← Rule.current
  if maxDigits < token.literal.length then
    Rule.halt (.numeralTooLong token.literal.length)
  else if maxInteger < Decimal.value token.literal then
    Rule.complain .outOfRange token
  else
    return .integer token (Decimal.value token.literal)

/-- Read a statement that binds a name. -/
def binding (nested : Nat → Rule Expr) : Rule Statement := do
  let token ← Rule.current
  let name ← Rule.expect .identifier
  let _ ← Rule.expect .assign
  Rule.advance
  let value ← Rule.passing .semicolon (nested lowest)
  return .binding token name value

/-- Read a statement that hands back a value. -/
def returning (nested : Nat → Rule Expr) : Rule Statement := do
  let token ← Rule.current
  Rule.advance
  let value ← Rule.passing .semicolon (nested lowest)
  return .returning token value

/-- Read a statement that is an expression. -/
def standing (nested : Nat → Rule Expr) : Rule Statement := do
  let token ← Rule.current
  let value ← Rule.passing .semicolon (nested lowest)
  return .expression token value

/-- Read a statement of any sort.  A semicolon after it belongs to it. -/
def statement (nested : Nat → Rule Expr) : Rule Statement := do
  let token ← Rule.current
  match token.kind with
  | .letWord => binding nested
  | .returnWord => returning nested
  | _ => standing nested

/-- Whether the current token is not of a closing kind. -/
def unclosed (closing : Kind → Bool) (stream : Stream) : Bool :=
  !closing stream.current.kind

/-- Read statements until the current token is of a closing kind.  Statements that fail are left
out, and reading goes on after them. -/
def statements (nested : Nat → Rule Expr) (closing : Kind → Bool) : Rule (List Statement) := do
  let found ← Rule.many (unclosed closing) do
    let found ← Rule.attempt (statement nested)
    Rule.advance
    return found
  return found.filterMap id

/-- Read a block from its opening brace to its closing one, or to the end of the text. -/
def block (nested : Nat → Rule Expr) : Rule Block := do
  let token ← Rule.current
  Rule.advance
  let body ← statements nested fun kind => kind = .closeBrace || kind = .eof
  return .mk token body

/-- Read a leading operator and its operand. -/
def prefixed (nested : Nat → Rule Expr) : Rule Expr := do
  let operator ← Rule.current
  Rule.advance
  let operand ← nested operandStrength
  return .prefixed operator operand

/-- Read an expression in parentheses. -/
def grouped (nested : Nat → Rule Expr) : Rule Expr := do
  Rule.advance
  let inner ← nested lowest
  let _ ← Rule.expect .closeParen
  return inner

/-- Read a choice between two blocks. -/
def conditional (nested : Nat → Rule Expr) : Rule Expr := do
  let token ← Rule.current
  let _ ← Rule.expect .openParen
  Rule.advance
  let condition ← nested lowest
  let _ ← Rule.expect .closeParen
  let _ ← Rule.expect .openBrace
  let consequence ← block nested
  let after ← Rule.peek
  if after.kind = .elseWord then
    Rule.advance
    let _ ← Rule.expect .openBrace
    let alternative ← block nested
    return .conditional token condition consequence (some alternative)
  else
    return .conditional token condition consequence none

/-- Whether the token after the current one is of the given kind. -/
def followedBy (kind : Kind) (stream : Stream) : Bool :=
  stream.peek.kind = kind

/-- Read the names of parameters up to the closing parenthesis. -/
def parameters : Rule (List Token) := do
  let after ← Rule.peek
  if after.kind = .closeParen then
    Rule.advance
    return []
  else
    let first ← Rule.expect .identifier
    let others ← Rule.many (followedBy .comma) do
      Rule.advance
      Rule.expect .identifier
    let _ ← Rule.expect .closeParen
    return first :: others

/-- Read a function literal. -/
def function (nested : Nat → Rule Expr) : Rule Expr := do
  let token ← Rule.current
  let _ ← Rule.expect .openParen
  let names ← parameters
  let _ ← Rule.expect .openBrace
  let body ← block nested
  return .function token names body

/-- Read expressions with commas between them up to the closing token. -/
def items (nested : Nat → Rule Expr) (closing : Kind) : Rule (List Expr) := do
  let after ← Rule.peek
  if after.kind = closing then
    Rule.advance
    return []
  else
    Rule.advance
    let first ← nested lowest
    let others ← Rule.many (followedBy .comma) do
      Rule.advance
      Rule.advance
      nested lowest
    let _ ← Rule.expect closing
    return first :: others

/-- Read an array literal. -/
def array (nested : Nat → Rule Expr) : Rule Expr := do
  let token ← Rule.current
  let elements ← items nested .closeBracket
  return .array token elements

/-- Read a key and its value, and the comma after them unless the hash literal closes. -/
def pair (nested : Nat → Rule Expr) : Rule (Expr × Expr) := do
  Rule.advance
  let key ← nested lowest
  let _ ← Rule.expect .colon
  Rule.advance
  let value ← nested lowest
  let after ← Rule.peek
  if after.kind = .closeBrace then
    return (key, value)
  else
    let _ ← Rule.expect .comma
    return (key, value)

/-- Whether the token after the current one is not of the given kind. -/
def notFollowedBy (kind : Kind) (stream : Stream) : Bool :=
  !followedBy kind stream

/-- Read a hash literal.  A comma may stand after its last pair. -/
def hash (nested : Nat → Rule Expr) : Rule Expr := do
  let token ← Rule.current
  let pairs ← Rule.many (notFollowedBy .closeBrace) (pair nested)
  Rule.advance
  return .hash token pairs

/-- Read the shortest expression that begins on the current token. -/
def operand (nested : Nat → Rule Expr) : Rule Expr := do
  let token ← Rule.current
  match token.kind with
  | .identifier => return .identifier token
  | .integer => integer
  | .string => return .string token
  | .trueWord => return .boolean token
  | .falseWord => return .boolean token
  | .bang => prefixed nested
  | .minus => prefixed nested
  | .openParen => grouped nested
  | .ifWord => conditional nested
  | .functionWord => function nested
  | .openBracket => array nested
  | .openBrace => hash nested
  | _ => Rule.complain .noExpression token

/-- Read an operator and its right operand, the left one being read. -/
def infixed (nested : Nat → Rule Expr) (left : Expr) : Rule Expr := do
  let operator ← Rule.current
  Rule.advance
  let right ← nested (strength operator.kind)
  return .infixed operator left right

/-- Read the arguments of a call, the callee being read. -/
def call (nested : Nat → Rule Expr) (callee : Expr) : Rule Expr := do
  let token ← Rule.current
  let arguments ← items nested .closeParen
  return .call token callee arguments

/-- Read the place of an element, its container being read. -/
def selection (nested : Nat → Rule Expr) (container : Expr) : Rule Expr := do
  let token ← Rule.current
  Rule.advance
  let position ← nested lowest
  let _ ← Rule.expect .closeBracket
  return .index token container position

/-- The rule by which a token extends an expression, if it can. -/
def extension? (nested : Nat → Rule Expr) (left : Expr) : Kind → Option (Rule Expr)
  | .equal | .notEqual | .less | .greater | .plus | .minus | .asterisk | .slash =>
      some (infixed nested left)
  | .openParen => some (call nested left)
  | .openBracket => some (selection nested left)
  | _ => none

theorem extension?_of_mem_infixes {nested : Nat → Rule Expr} {left : Expr} {kind : Kind}
    (infix_kind : kind ∈ Kind.infixes) :
    extension? nested left kind = some (infixed nested left) := by
  cases kind <;> first | rfl | exact absurd infix_kind (by decide)

theorem extension?_eq_some {nested : Nat → Rule Expr} {left : Expr} {kind : Kind}
    {rule : Rule Expr} (extension : extension? nested left kind = some rule) :
    (kind ∈ Kind.infixes ∧ rule = infixed nested left) ∨
      (kind = .openParen ∧ rule = call nested left) ∨
        (kind = .openBracket ∧ rule = selection nested left) := by
  cases kind <;> simp_all [extension?, Kind.infixes]

/-- Extend an expression by the token after the current one. -/
def extend (nested : Nat → Rule Expr) (left : Expr) : Rule Expr := do
  let after ← Rule.peek
  match extension? nested left after.kind with
  | none => Rule.halt (.noExtension after.kind)
  | some rule =>
      Rule.advance
      rule

/-- Whether the token after the current one binds more tightly than asked for. -/
def continues (precedence : Nat) (stream : Stream) : Bool :=
  stream.peek.kind != .semicolon && precedence < strength stream.peek.kind

/-- Read an expression whose extensions all bind more tightly than `precedence`, with `nested` for
the expressions inside it. -/
def expressionOver (nested : Nat → Rule Expr) (precedence : Nat) : Rule Expr := do
  let left ← operand nested
  Rule.foldWhile (continues precedence) (extend nested) left

/-- Read an expression whose extensions all bind more tightly than `precedence`. -/
def expression (precedence : Nat) : Rule Expr :=
  fun stream =>
    expressionOver
      (fun tighter inner =>
        if inner.length < stream.length then
          expression tighter inner
        else
          .error .stuck)
      precedence stream
termination_by stream => stream.length

/-- Read an expression that begins with fewer tokens ahead than the given number. -/
def expressionBelow (bound precedence : Nat) : Rule Expr :=
  fun stream => if stream.length < bound then expression precedence stream else .error .stuck

theorem expression_eq (precedence : Nat) (stream : Stream) :
    expression precedence stream =
      expressionOver (expressionBelow stream.length) precedence stream := by
  rw [expression]
  rfl

end Grammar

end MarmosetLang
