import MarmosetLang.Token.Scan

/-!
# Token streams

A stream is a finite list of tokens with an end that repeats for ever.  Readers see the token they
stand on and the one after it, and can only move forward.
-/

namespace MarmosetLang

/-- The tokens that are still ahead, and the token that stands for the end from then on.  The end
has a kind of its own. -/
@[ext]
structure Stream where
  /-- The tokens ahead, the current one first, the end left out. -/
  tokens : List Token
  /-- The token met once the others have run out. -/
  ending : Token
  /-- No token ahead stands for the end. -/
  kind_ne_eof : ∀ token ∈ tokens, token.kind ≠ .eof
  /-- The ending does. -/
  kind_ending : ending.kind = .eof
deriving DecidableEq, Repr

namespace Stream

/-- The stream of the tokens of a text. -/
def ofText (text : String) : Stream where
  tokens := Token.scan text
  ending := Token.endOf text.length
  kind_ne_eof _ := Token.kind_ne_eof_of_mem_scanFrom
  kind_ending := rfl

/-- The number of tokens ahead. -/
def length (stream : Stream) : Nat :=
  stream.tokens.length

/-- The token at a given distance ahead. -/
def get (stream : Stream) (distance : Nat) : Token :=
  stream.tokens.getD distance stream.ending

/-- The token on which the stream stands. -/
def current (stream : Stream) : Token :=
  stream.tokens.headD stream.ending

/-- The token after the current one. -/
def peek (stream : Stream) : Token :=
  stream.tokens.tail.headD stream.ending

/-- Move on by one token.  At the end nothing changes. -/
def advance (stream : Stream) : Stream :=
  { stream with
    tokens := stream.tokens.tail
    kind_ne_eof := fun token member => stream.kind_ne_eof token (List.mem_of_mem_tail member) }

theorem tokens_advance (stream : Stream) : stream.advance.tokens = stream.tokens.tail := rfl

theorem length_advance (stream : Stream) : stream.advance.length = stream.length - 1 := by
  simp [length, advance]

theorem length_advance_le (stream : Stream) : stream.advance.length ≤ stream.length := by
  rw [length_advance]
  exact Nat.sub_le _ _

/-- Of two streams the one with fewer tokens after its current one is shorter. -/
theorem length_lt_of_advance_lt {earlier later : Stream}
    (lt : later.advance.length < earlier.advance.length) : later.length < earlier.length := by
  rw [length_advance, length_advance] at lt
  omega

theorem get_zero (stream : Stream) : stream.get 0 = stream.current := by
  cases h : stream.tokens <;> simp [get, current, h]

theorem get_one (stream : Stream) : stream.get 1 = stream.peek := by
  match h : stream.tokens with
  | [] => simp [get, peek, h]
  | [_] => simp [get, peek, h]
  | _ :: _ :: _ => simp [get, peek, h]

theorem current_advance (stream : Stream) : stream.advance.current = stream.peek := rfl

theorem kind_current (stream : Stream) :
    stream.current.kind = Token.nextKind stream.tokens := by
  unfold current
  cases stream.tokens with
  | nil => exact stream.kind_ending
  | cons token rest => rfl

theorem kind_peek (stream : Stream) :
    stream.peek.kind = Token.nextKind stream.advance.tokens :=
  stream.advance.kind_current

theorem current_eq {stream : Stream} {token : Token} {rest : List Token}
    (tokens : stream.tokens = token :: rest) : stream.current = token := by
  rw [current, tokens, List.headD_cons]

theorem tokens_advance_eq {stream : Stream} {token : Token} {rest : List Token}
    (tokens : stream.tokens = token :: rest) : stream.advance.tokens = rest := by
  rw [tokens_advance, tokens, List.tail_cons]

theorem peek_eq {stream : Stream} {token : Token} {rest : List Token}
    (tokens : stream.advance.tokens = token :: rest) : stream.peek = token :=
  current_eq tokens

/-- Before the end, the tokens ahead are the current one and those after it. -/
theorem tokens_eq (stream : Stream) (kind : stream.current.kind ≠ .eof) :
    stream.tokens = stream.current :: stream.advance.tokens := by
  cases h : stream.tokens with
  | nil => simp [kind_current, h] at kind
  | cons token rest => rw [current_eq h, tokens_advance_eq h]

theorem tokens_eq_of_kind {stream : Stream} {kind : Kind} (same : stream.current.kind = kind)
    (ne_eof : kind ≠ .eof) : stream.tokens = stream.current :: stream.advance.tokens :=
  stream.tokens_eq (same ▸ ne_eof)

theorem tokens_advance_eq_of_kind {stream : Stream} {kind : Kind} (same : stream.peek.kind = kind)
    (ne_eof : kind ≠ .eof) :
    stream.advance.tokens = stream.peek :: stream.advance.advance.tokens :=
  stream.advance.tokens_eq (same ▸ ne_eof)

theorem tokens_eq_nil {stream : Stream} (kind : stream.current.kind = .eof) :
    stream.tokens = [] := by
  rw [kind_current] at kind
  cases h : stream.tokens with
  | nil => rfl
  | cons token rest =>
      rw [h] at kind
      exact absurd kind (stream.kind_ne_eof token (h ▸ List.mem_cons_self))

end Stream

end MarmosetLang
