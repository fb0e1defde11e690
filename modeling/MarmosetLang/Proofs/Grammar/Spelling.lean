import MarmosetLang.Grammar.Program

/-!
# Spellings

How a program may be written down as tokens.  Every node writes its own tokens in a fixed order, and
some things are left to whoever writes: more parentheses than needed, the semicolon after a
statement, a comma after the last pair of a hash literal, and the closing braces of the blocks that
are still open at the end of the text.

`Spelled phrase before after` says that the tokens of `before` up to `after` spell the phrase.  What
comes after a phrase matters in two places only.  A closing brace may be missing where nothing
follows, and a semicolon where the next token could not be taken for a part of the expression.
-/

namespace MarmosetLang

namespace Grammar

/-- The strength with which the callee of a call and the container of a selection have to bind. -/
def calleeStrength : Nat := 7

theorem lowest_le_strength (kind : Kind) : lowest ≤ strength kind := by
  cases kind <;> decide

theorem strength_le (kind : Kind) : strength kind ≤ calleeStrength := by
  cases kind <;> decide

theorem strength_lt_of_mem_infixes {kind : Kind} (infixed : kind ∈ Kind.infixes) :
    lowest < strength kind ∧ strength kind < operandStrength := by
  revert infixed
  cases kind <;> decide

theorem strength_eq_lowest_iff (kind : Kind) :
    strength kind = lowest ↔ kind ∉ Kind.extensions := by
  cases kind <;> decide

/-- How tightly an expression read at a given precedence binds at least.  Nothing binds as tightly
as an operand and less tightly than a leading operator. -/
def leastStrength (precedence : Nat) : Nat :=
  min (precedence + 1) operandStrength

theorem leastStrength_le (precedence : Nat) : leastStrength precedence ≤ operandStrength :=
  Nat.min_le_right _ _

theorem leastStrength_of_mem_infixes {kind : Kind} (infixed : kind ∈ Kind.infixes) :
    leastStrength (strength kind) = strength kind + 1 :=
  Nat.min_eq_left (strength_lt_of_mem_infixes infixed).2

end Grammar

/-- The strength with which the root of an expression holds its parts together.  Only operators bind
less tightly than calls. -/
def Expr.strength : Expr → Nat
  | .infixed operator _ _ => Grammar.strength operator.kind
  | .prefixed _ _ => Grammar.operandStrength
  | _ => Grammar.calleeStrength

/-- What may stand between a statement and what follows it. -/
inductive Terminated : List Token → List Token → Prop where
  | semicolon {token : Token} {after : List Token} (kind : token.kind = .semicolon) :
      Terminated (token :: after) after
  | omitted {after : List Token} (next : Token.nextKind after ∉ Kind.extensions) :
      Terminated after after

/-- The tokens after the first name of a parameter list spell the other names. -/
inductive OtherNames : List Token → List Token → List Token → Prop where
  | closer {closer : Token} {after : List Token} (kind : closer.kind = .closeParen) :
      OtherNames [] (closer :: after) after
  | cons {comma name : Token} {names middle after : List Token} (separated : comma.kind = .comma)
      (named : name.kind = .identifier) (others : OtherNames names middle after) :
      OtherNames (name :: names) (comma :: name :: middle) after

/-- The tokens after the opening parenthesis spell the names of the parameters. -/
inductive Names : List Token → List Token → List Token → Prop where
  | closer {closer : Token} {after : List Token} (kind : closer.kind = .closeParen) :
      Names [] (closer :: after) after
  | cons {name : Token} {names middle after : List Token} (named : name.kind = .identifier)
      (others : OtherNames names middle after) : Names (name :: names) (name :: middle) after

theorem Terminated.length_after {before after : List Token} (terminated : Terminated before after) :
    after.length ≤ before.length := by
  cases terminated <;> simp

theorem OtherNames.length_after {names before after : List Token}
    (spelled : OtherNames names before after) : after.length < before.length := by
  induction spelled with
  | closer kind => exact Nat.lt_succ_self _
  | cons separated named others ih => exact Nat.lt_succ_of_lt (Nat.lt_succ_of_lt ih)

theorem Names.length_after {names before after : List Token}
    (spelled : Names names before after) : after.length < before.length := by
  cases spelled with
  | closer kind => simp
  | cons named others => exact Nat.lt_succ_of_lt others.length_after

/-- A part of a program that can be spelled. -/
inductive Phrase where
  /-- An expression without parentheses around it. -/
  | bare (value : Expr)
  /-- An expression in a place where only what binds with the given strength may stand bare. -/
  | expression (strength : Nat) (value : Expr)
  /-- Expressions with commas between them and the closing token after them. -/
  | items (closing : Kind) (values : List Expr)
  /-- The same after the first expression. -/
  | otherItems (closing : Kind) (values : List Expr)
  /-- The pairs of a hash literal and its closing brace. -/
  | pairs (values : List (Expr × Expr))
  /-- A block with its braces. -/
  | block (body : Block)
  /-- A statement and what ends it. -/
  | statement (value : Statement)
  /-- Statements one after another. -/
  | statements (values : List Statement)

open Grammar in
/-- The tokens up to `after` spell a phrase. -/
inductive Spelled : Phrase → List Token → List Token → Prop where
  | identifier {token : Token} {after : List Token} (kind : token.kind = .identifier) :
      Spelled (.bare (.identifier token)) (token :: after) after
  | integer {token : Token} {after : List Token} (kind : token.kind = .integer)
      (short : token.literal.length ≤ maxDigits)
      (small : Decimal.value token.literal ≤ maxInteger) :
      Spelled (.bare (.integer token (Decimal.value token.literal))) (token :: after) after
  | string {token : Token} {after : List Token} (kind : token.kind = .string) :
      Spelled (.bare (.string token)) (token :: after) after
  | boolean {token : Token} {after : List Token}
      (kind : token.kind = .trueWord ∨ token.kind = .falseWord) :
      Spelled (.bare (.boolean token)) (token :: after) after
  | array {token : Token} {elements : List Expr} {middle after : List Token}
      (kind : token.kind = .openBracket)
      (inside : Spelled (.items .closeBracket elements) middle after) :
      Spelled (.bare (.array token elements)) (token :: middle) after
  | hash {token : Token} {pairs : List (Expr × Expr)} {middle after : List Token}
      (kind : token.kind = .openBrace) (inside : Spelled (.pairs pairs) middle after) :
      Spelled (.bare (.hash token pairs)) (token :: middle) after
  /-- A leading operator and its operand, which is no bare operation on two operands. -/
  | prefixed {operator : Token} {operand : Expr} {middle after : List Token}
      (kind : operator.kind = .bang ∨ operator.kind = .minus)
      (operand_spelled : Spelled (.expression operandStrength operand) middle after) :
      Spelled (.bare (.prefixed operator operand)) (operator :: middle) after
  /-- An operator between its operands.  The left one binds at least as tightly, the right one more
  tightly. -/
  | infixed {operator : Token} {left right : Expr} {before middle after : List Token}
      (kind : operator.kind ∈ Kind.infixes)
      (left_spelled :
        Spelled (.expression (strength operator.kind) left) before (operator :: middle))
      (right_spelled : Spelled (.expression (strength operator.kind + 1) right) middle after) :
      Spelled (.bare (.infixed operator left right)) before after
  | conditional {token opener closer : Token} {condition : Expr} {consequence : Block}
      {first second after : List Token} (kind : token.kind = .ifWord)
      (opened : opener.kind = .openParen)
      (condition_spelled : Spelled (.expression lowest condition) first (closer :: second))
      (closed : closer.kind = .closeParen)
      (consequence_spelled : Spelled (.block consequence) second after) :
      Spelled (.bare (.conditional token condition consequence none)) (token :: opener :: first)
        after
  | alternative {token opener closer other : Token} {condition : Expr}
      {consequence alternative : Block} {first second third after : List Token}
      (kind : token.kind = .ifWord) (opened : opener.kind = .openParen)
      (condition_spelled : Spelled (.expression lowest condition) first (closer :: second))
      (closed : closer.kind = .closeParen)
      (consequence_spelled : Spelled (.block consequence) second (other :: third))
      (otherwise : other.kind = .elseWord)
      (alternative_spelled : Spelled (.block alternative) third after) :
      Spelled (.bare (.conditional token condition consequence (some alternative)))
        (token :: opener :: first) after
  | function {token opener : Token} {names : List Token} {body : Block}
      {first second after : List Token} (kind : token.kind = .functionWord)
      (opened : opener.kind = .openParen) (names_spelled : Names names first second)
      (body_spelled : Spelled (.block body) second after) :
      Spelled (.bare (.function token names body)) (token :: opener :: first) after
  /-- A callee, which is no bare operation, and the arguments. -/
  | call {token : Token} {callee : Expr} {arguments : List Expr} {before middle after : List Token}
      (kind : token.kind = .openParen)
      (callee_spelled : Spelled (.expression calleeStrength callee) before (token :: middle))
      (arguments_spelled : Spelled (.items .closeParen arguments) middle after) :
      Spelled (.bare (.call token callee arguments)) before after
  /-- A container, which is no bare operation, and the place of an element. -/
  | index {token closer : Token} {container position : Expr} {before middle after : List Token}
      (kind : token.kind = .openBracket)
      (container_spelled : Spelled (.expression calleeStrength container) before (token :: middle))
      (position_spelled : Spelled (.expression lowest position) middle (closer :: after))
      (closed : closer.kind = .closeBracket) :
      Spelled (.bare (.index token container position)) before after
  /-- What binds tightly enough may stand bare. -/
  | ungrouped {strength : Nat} {value : Expr} {before after : List Token}
      (tight : strength ≤ value.strength) (bare : Spelled (.bare value) before after) :
      Spelled (.expression strength value) before after
  /-- Everything may stand in parentheses. -/
  | grouped {strength : Nat} {opener closer : Token} {value : Expr} {middle after : List Token}
      (opened : opener.kind = .openParen)
      (inside : Spelled (.expression lowest value) middle (closer :: after))
      (closed : closer.kind = .closeParen) :
      Spelled (.expression strength value) (opener :: middle) after
  | noItems {closing : Kind} {closer : Token} {after : List Token}
      (closed : closer.kind = closing) :
      Spelled (.items closing []) (closer :: after) after
  | items {closing : Kind} {first : Expr} {others : List Expr} {before middle after : List Token}
      (first_spelled : Spelled (.expression lowest first) before middle)
      (others_spelled : Spelled (.otherItems closing others) middle after) :
      Spelled (.items closing (first :: others)) before after
  | noOtherItems {closing : Kind} {closer : Token} {after : List Token}
      (closed : closer.kind = closing) : Spelled (.otherItems closing []) (closer :: after) after
  | otherItems {closing : Kind} {comma : Token} {first : Expr} {others : List Expr}
      {before middle after : List Token} (separated : comma.kind = .comma)
      (first_spelled : Spelled (.expression lowest first) before middle)
      (others_spelled : Spelled (.otherItems closing others) middle after) :
      Spelled (.otherItems closing (first :: others)) (comma :: before) after
  | noPairs {closer : Token} {after : List Token} (closed : closer.kind = .closeBrace) :
      Spelled (.pairs []) (closer :: after) after
  | lastPair {colon closer : Token} {key value : Expr} {before middle after : List Token}
      (key_spelled : Spelled (.expression lowest key) before (colon :: middle))
      (separated : colon.kind = .colon)
      (value_spelled : Spelled (.expression lowest value) middle (closer :: after))
      (closed : closer.kind = .closeBrace) : Spelled (.pairs [(key, value)]) before after
  /-- A pair with a comma after it, and the others, of which there may be none. -/
  | pairs {colon comma : Token} {key value : Expr} {others : List (Expr × Expr)}
      {before middle later after : List Token}
      (key_spelled : Spelled (.expression lowest key) before (colon :: middle))
      (separated : colon.kind = .colon)
      (value_spelled : Spelled (.expression lowest value) middle (comma :: later))
      (continued : comma.kind = .comma) (others_spelled : Spelled (.pairs others) later after) :
      Spelled (.pairs ((key, value) :: others)) before after
  | block {token closer : Token} {body : List Statement} {middle after : List Token}
      (kind : token.kind = .openBrace)
      (inside : Spelled (.statements body) middle (closer :: after))
      (closed : closer.kind = .closeBrace) :
      Spelled (.block (.mk token body)) (token :: middle) after
  /-- Statements after a brace that the end of the text leaves open. -/
  | openBlock {token : Token} {body : List Statement} {middle : List Token}
      (kind : token.kind = .openBrace) (inside : Spelled (.statements body) middle []) :
      Spelled (.block (.mk token body)) (token :: middle) []
  | binding {token name assign : Token} {value : Expr} {middle rest after : List Token}
      (kind : token.kind = .letWord) (named : name.kind = .identifier)
      (assigned : assign.kind = .assign)
      (value_spelled : Spelled (.expression lowest value) middle rest)
      (terminated : Terminated rest after) :
      Spelled (.statement (.binding token name value)) (token :: name :: assign :: middle) after
  | returning {token : Token} {value : Expr} {middle rest after : List Token}
      (kind : token.kind = .returnWord)
      (value_spelled : Spelled (.expression lowest value) middle rest)
      (terminated : Terminated rest after) :
      Spelled (.statement (.returning token value)) (token :: middle) after
  /-- An expression that stands for itself, known by its first token. -/
  | standing {token : Token} {value : Expr} {middle rest after : List Token}
      (value_spelled : Spelled (.expression lowest value) (token :: middle) rest)
      (terminated : Terminated rest after) :
      Spelled (.statement (.expression token value)) (token :: middle) after
  | noStatements {after : List Token} : Spelled (.statements []) after after
  | statements {first : Statement} {others : List Statement} {before middle after : List Token}
      (first_spelled : Spelled (.statement first) before middle)
      (others_spelled : Spelled (.statements others) middle after) :
      Spelled (.statements (first :: others)) before after

/-- The least number of tokens that a phrase takes up. -/
def Phrase.least : Phrase → Nat
  | .statements values => values.length
  | _ => 1

/-- Whether a phrase may begin with a token of the given kind. -/
def Phrase.Begins (kind : Kind) : Phrase → Prop
  | .bare _ | .expression _ _ => kind ∈ Kind.beginnings
  | .otherItems closing _ => kind = .comma ∨ kind = closing
  | .block _ => kind = .openBrace
  | .statement _ => kind ∈ Kind.statementBeginnings
  | _ => True

namespace Spelled

/-- What binds tightly enough for one place does so for all that ask for less. -/
theorem mono {strength weaker : Nat} {value : Expr} {before after : List Token}
    (spelled : Spelled (.expression strength value) before after) (le : weaker ≤ strength) :
    Spelled (.expression weaker value) before after := by
  cases spelled with
  | ungrouped tight bare => exact .ungrouped (Nat.le_trans le tight) bare
  | grouped opened inside closed => exact .grouped opened inside closed

theorem length_after {phrase : Phrase} {before after : List Token}
    (spelled : Spelled phrase before after) : after.length + phrase.least ≤ before.length := by
  induction spelled with
  | function _ _ names_spelled _ body =>
      have names := names_spelled.length_after
      simp only [Phrase.least, List.length_cons] at *
      omega
  | binding _ _ _ _ terminated value | returning _ _ terminated value
  | standing _ terminated value =>
      have rest := terminated.length_after
      simp only [Phrase.least, List.length_cons] at *
      omega
  | _ => simp only [Phrase.least, List.length_cons, List.length_nil] at *; omega

/-- Whatever is spelled without parentheses binds more tightly than nothing at all. -/
theorem lowest_lt_strength {value : Expr} {before after : List Token}
    (spelled : Spelled (.bare value) before after) : Grammar.lowest < value.strength := by
  cases spelled with
  | infixed kind left right => exact (Grammar.strength_lt_of_mem_infixes kind).1
  | _ => exact Nat.le_of_ble_eq_true rfl

/-- A phrase begins as its sort demands.  The first token of an operation is that of its first
operand. -/
theorem begins {phrase : Phrase} {before after : List Token}
    (spelled : Spelled phrase before after) : phrase.Begins (Token.nextKind before) := by
  induction spelled with
  | boolean kind | prefixed kind =>
      rcases kind with kind | kind <;> simp [Phrase.Begins, Kind.beginnings, kind]
  | infixed _ _ _ left | call _ _ _ left | index _ _ _ _ left => exact left
  | ungrouped _ _ bare => exact bare
  | standing _ _ value =>
      exact List.mem_cons_of_mem _ (List.mem_cons_of_mem _ value)
  | _ => simp_all [Phrase.Begins, Kind.beginnings, Kind.statementBeginnings]

/-- Statements begin with the first of them, if there is one. -/
theorem begins_of_statements {values : List Statement} {before after : List Token}
    (spelled : Spelled (.statements values) before after) :
    before = after ∨ Token.nextKind before ∈ Kind.statementBeginnings := by
  cases spelled with
  | noStatements => exact .inl rfl
  | statements first others => exact .inr first.begins

end Spelled

/-- The tokens of a whole text spell a program. -/
def Program.Spelled (program : Program) (tokens : List Token) : Prop :=
  MarmosetLang.Spelled (.statements program.statements) tokens []

end MarmosetLang
