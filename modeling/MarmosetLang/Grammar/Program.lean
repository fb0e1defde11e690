import MarmosetLang.Grammar.Expression

/-!
# Parsing programs

A whole stream is read as statements up to its end.  Every statement that fails is left out of the
tree and has its issue on the list, so that one pass shows several faults.

Expressions may be nested without bound, because the rules call one another without a stack that
could be exhausted.  A text is any sequence of Unicode scalar values, so it holds no surrogates.
-/

namespace MarmosetLang

/-- What a stream comes to: the statements that could be read, and the issues of the others. -/
structure Parsed where
  /-- The statements that could be read. -/
  program : Program
  /-- The issues found, in order. -/
  issues : List Issue
  /-- The number of statements given up, at any depth. -/
  dropped : Nat

namespace Grammar

/-- Read statements up to the end of the stream. -/
def program : Rule Program := do
  let found ← statements expression fun kind => kind = .eof
  return ⟨found⟩

/-- Parse a stream of tokens. -/
def parse (stream : Stream) : Except Halt Parsed :=
  (program stream).map fun reply =>
    ⟨reply.result.getD ⟨[]⟩, reply.issues, reply.dropped⟩

/-- Parse a text. -/
def parseText (text : String) : Except Halt Parsed :=
  parse (Stream.ofText text)

end Grammar

end MarmosetLang
