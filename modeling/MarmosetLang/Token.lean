/-!
# Tokens

The vocabulary that the scanner produces and the grammar consumes.  A token has a kind, the text it
carries, and the place where it begins.  Words split into keywords and identifiers by spelling.
-/

namespace MarmosetLang

/-- The lexical class of a token. -/
inductive Kind where
  | illegal
  | eof
  | identifier
  | integer
  | string
  | assign
  | plus
  | minus
  | bang
  | asterisk
  | slash
  | less
  | greater
  | equal
  | notEqual
  | comma
  | semicolon
  | colon
  | openParen
  | closeParen
  | openBrace
  | closeBrace
  | openBracket
  | closeBracket
  | functionWord
  | letWord
  | trueWord
  | falseWord
  | ifWord
  | elseWord
  | returnWord
deriving DecidableEq, Repr

namespace Kind

/-- The name by which messages call a kind: a glyph goes by itself. -/
def name : Kind → String
  | illegal => "ILLEGAL"
  | eof => "EOF"
  | identifier => "IDENT"
  | integer => "INT"
  | string => "STRING"
  | assign => "="
  | plus => "+"
  | minus => "-"
  | bang => "!"
  | asterisk => "*"
  | slash => "/"
  | less => "<"
  | greater => ">"
  | equal => "=="
  | notEqual => "!="
  | comma => ","
  | semicolon => ";"
  | colon => ":"
  | openParen => "("
  | closeParen => ")"
  | openBrace => "\x7b"
  | closeBrace => "\x7d"
  | openBracket => "["
  | closeBracket => "]"
  | functionWord => "FUNCTION"
  | letWord => "LET"
  | trueWord => "TRUE"
  | falseWord => "FALSE"
  | ifWord => "IF"
  | elseWord => "ELSE"
  | returnWord => "RETURN"

/-- The kind of a word: a keyword if it is spelt like one, and an identifier otherwise. -/
def ofWord (word : String) : Kind :=
  if word = "fn" then functionWord
  else if word = "let" then letWord
  else if word = "true" then trueWord
  else if word = "false" then falseWord
  else if word = "if" then ifWord
  else if word = "else" then elseWord
  else if word = "return" then returnWord
  else identifier

/-- The operators that stand between two operands. -/
def infixes : List Kind :=
  [equal, notEqual, less, greater, plus, minus, asterisk, slash]

/-- The kinds of tokens that extend the expression before them. -/
def extensions : List Kind :=
  infixes ++ [openParen, openBracket]

/-- The kinds of tokens with which an expression may begin. -/
def beginnings : List Kind :=
  [identifier, integer, string, trueWord, falseWord, bang, minus, openParen, ifWord, functionWord,
    openBracket, openBrace]

/-- The kinds of tokens with which a statement may begin. -/
def statementBeginnings : List Kind :=
  letWord :: returnWord :: beginnings

theorem ofWord_ne_eof (word : String) : ofWord word ≠ eof := by
  unfold ofWord
  repeat' split
  all_goals exact nofun

end Kind

/-- A token: its kind, the text it carries, and the number of characters before it. -/
structure Token where
  /-- The lexical class. -/
  kind : Kind
  /-- The text of the token, without the quotes of a quoted text. -/
  literal : String
  /-- The number of characters of the source text before the token. -/
  offset : Nat
deriving DecidableEq, Repr

namespace Token

/-- The number of columns under which a token is marked: its literal's length, and at least one. -/
def width (token : Token) : Nat :=
  max 1 token.literal.length

/-- The token that stands at the end of a text of the given length. -/
def endOf (length : Nat) : Token :=
  ⟨.eof, "", length⟩

/-- The kind of the first of some tokens, which is that of the end if there are none. -/
def nextKind : List Token → Kind
  | [] => .eof
  | token :: _ => token.kind

@[simp]
theorem nextKind_nil : nextKind [] = .eof := rfl

@[simp]
theorem nextKind_cons (token : Token) (rest : List Token) :
    nextKind (token :: rest) = token.kind := rfl

end Token

end MarmosetLang
