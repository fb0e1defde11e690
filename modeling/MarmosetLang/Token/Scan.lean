import MarmosetLang.Token

/-!
# Scanning

A text falls into lexemes with layout between them, and each lexeme gives one token.  At every place
the longest lexeme wins.  Scanning never fails: a character that starts nothing else is a token of
its own, of kind `illegal`.
-/

namespace MarmosetLang

/-- Spaces, tabs and line breaks separate tokens and mean nothing else. -/
def isLayout (c : Char) : Bool :=
  c = ' ' || c = '\t' || c = '\r' || c = '\n'

/-- The characters of words: the ASCII letters and the underscore. -/
def isLetter (c : Char) : Bool :=
  c.isAlpha || c = '_'

/-- The front of a text, taken as one token. -/
structure Lexeme where
  /-- The kind of the token. -/
  kind : Kind
  /-- The text that the token carries. -/
  literal : List Char
  /-- The number of characters taken, quotes included. -/
  size : Nat
deriving DecidableEq, Repr

namespace Lexeme

/-- The longest word at the front of a text that starts with the letter `first`. -/
def word (first : Char) (rest : List Char) : Lexeme :=
  let letters := first :: rest.takeWhile isLetter
  ⟨Kind.ofWord (String.ofList letters), letters, letters.length⟩

/-- The longest numeral at the front of a text that starts with the digit `first`. -/
def numeral (first : Char) (rest : List Char) : Lexeme :=
  let digits := first :: rest.takeWhile Char.isDigit
  ⟨.integer, digits, digits.length⟩

/-- The quoted text whose opening quote stands before `rest`.  It reaches to the next quote, or to
the end of the text when none is left. -/
def quoted (rest : List Char) : Lexeme :=
  let body := rest.takeWhile (· != '"')
  ⟨.string, body, 1 + min (body.length + 1) rest.length⟩

/-- The glyph `first`, or the two-character glyph that it makes with an equals sign after it. -/
def glyph (first : Char) (rest : List Char) : Lexeme :=
  let doubled := rest.head? = some '='
  match first with
  | '=' => if doubled then ⟨.equal, ['=', '='], 2⟩ else ⟨.assign, ['='], 1⟩
  | '!' => if doubled then ⟨.notEqual, ['!', '='], 2⟩ else ⟨.bang, ['!'], 1⟩
  | '+' => ⟨.plus, ['+'], 1⟩
  | '-' => ⟨.minus, ['-'], 1⟩
  | '*' => ⟨.asterisk, ['*'], 1⟩
  | '/' => ⟨.slash, ['/'], 1⟩
  | '<' => ⟨.less, ['<'], 1⟩
  | '>' => ⟨.greater, ['>'], 1⟩
  | ',' => ⟨.comma, [','], 1⟩
  | ';' => ⟨.semicolon, [';'], 1⟩
  | ':' => ⟨.colon, [':'], 1⟩
  | '(' => ⟨.openParen, ['('], 1⟩
  | ')' => ⟨.closeParen, [')'], 1⟩
  | '{' => ⟨.openBrace, ['{'], 1⟩
  | '}' => ⟨.closeBrace, ['}'], 1⟩
  | '[' => ⟨.openBracket, ['['], 1⟩
  | ']' => ⟨.closeBracket, [']'], 1⟩
  | other => ⟨.illegal, [other], 1⟩

/-- The longest lexeme at the front of a text whose first character is no layout. -/
def longest (first : Char) (rest : List Char) : Lexeme :=
  if isLetter first then word first rest
  else if first.isDigit then numeral first rest
  else if first = '"' then quoted rest
  else glyph first rest

theorem glyph_kind_ne_eof (first : Char) (rest : List Char) : (glyph first rest).kind ≠ .eof := by
  unfold glyph
  dsimp only
  repeat' split
  all_goals exact nofun

theorem longest_kind_ne_eof (first : Char) (rest : List Char) :
    (longest first rest).kind ≠ .eof := by
  unfold longest
  split
  · exact Kind.ofWord_ne_eof _
  · split
    · exact nofun
    · split
      · exact nofun
      · exact glyph_kind_ne_eof first rest

end Lexeme

namespace Token

/-- The tokens of a text that begins `offset` characters into the whole. -/
def scanFrom (offset : Nat) : List Char → List Token
  | [] => []
  | first :: rest =>
      if isLayout first then
        scanFrom (offset + 1) rest
      else
        let lexeme := Lexeme.longest first rest
        ⟨lexeme.kind, String.ofList lexeme.literal, offset⟩ ::
          scanFrom (offset + lexeme.size) (rest.drop (lexeme.size - 1))
termination_by text => text.length
decreasing_by
  · exact Nat.lt_succ_self _
  · rw [List.length_drop, List.length_cons]
    omega

/-- The tokens of a text, its end left out. -/
def scan (text : String) : List Token :=
  scanFrom 0 text.toList

/-- No text holds a token of the kind that stands for the end. -/
theorem kind_ne_eof_of_mem_scanFrom {offset : Nat} {text : List Char} {token : Token}
    (member : token ∈ scanFrom offset text) : token.kind ≠ .eof := by
  fun_induction scanFrom offset text with
  | case1 => simp at member
  | case2 offset first rest layout ih => exact ih member
  | case3 offset first rest layout lexeme ih =>
      rcases List.mem_cons.mp member with rfl | member
      · exact Lexeme.longest_kind_ne_eof first rest
      · exact ih member

end Token

end MarmosetLang
