import MarmosetLang.Grammar.Issue
import MarmosetLang.Token.Stream

/-!
# Grammar rules

A rule starts on the first token of a construct and ends on its last one.  It may fail, and then
says why in an issue; whoever called it fails as well, up to the nearest `attempt`.  Rules are put
together from a few steps by `bind`, and repeated by `many` and `foldWhile`, which go on only as
long as the stream gets shorter.
-/

namespace MarmosetLang

/-- Why a stream gets no answer at all. -/
inductive Halt where
  /-- A numeral has more digits than can be converted. -/
  | numeralTooLong (digits : Nat)
  /-- A token binds tightly enough to extend an expression, but nothing says how. -/
  | noExtension (kind : Kind)
  /-- A rule was to be repeated or nested without having moved forward. -/
  | stuck
deriving DecidableEq, Repr

/-- The answer of a rule. -/
structure Reply (α : Type) where
  /-- The construct, unless the rule failed. -/
  result : Option α
  /-- The stream as the rule leaves it. -/
  rest : Stream
  /-- The issues found, in order. -/
  issues : List Issue
  /-- The number of statements given up on the way. -/
  dropped : Nat

namespace Reply

/-- Change the construct and keep everything else. -/
def map {α β : Type} (change : α → β) (reply : Reply α) : Reply β :=
  ⟨reply.result.map change, reply.rest, reply.issues, reply.dropped⟩

/-- Answer with the later reply, the findings of the earlier one put in front. -/
def followedBy {α β : Type} (earlier : Reply α) (later : Reply β) : Reply β :=
  ⟨later.result, later.rest, earlier.issues ++ later.issues, earlier.dropped + later.dropped⟩

end Reply

/-- A way to read a construct off a stream. -/
def Rule (α : Type) : Type :=
  Stream → Except Halt (Reply α)

namespace Rule

/-- Answer with a construct without looking at the stream. -/
protected def pure {α : Type} (value : α) : Rule α :=
  fun stream => .ok ⟨some value, stream, [], 0⟩

/-- Read one construct, then go on as it demands.  Failure and halting stop at once. -/
protected def bind {α β : Type} (rule : Rule α) (next : α → Rule β) : Rule β :=
  fun stream =>
    match rule stream with
    | .error halt => .error halt
    | .ok ⟨none, rest, issues, dropped⟩ => .ok ⟨none, rest, issues, dropped⟩
    | .ok ⟨some value, rest, issues, dropped⟩ =>
        (next value rest).map (Reply.followedBy ⟨some value, rest, issues, dropped⟩)

instance : Monad Rule where
  pure := Rule.pure
  bind := Rule.bind

/-- Break off with no answer at all. -/
def halt {α : Type} (reason : Halt) : Rule α :=
  fun _ => .error reason

/-- The token on which the stream stands. -/
def current : Rule Token :=
  fun stream => .ok ⟨some stream.current, stream, [], 0⟩

/-- The token after the current one. -/
def peek : Rule Token :=
  fun stream => .ok ⟨some stream.peek, stream, [], 0⟩

/-- Move on by one token. -/
def advance : Rule Unit :=
  fun stream => .ok ⟨some (), stream.advance, [], 0⟩

/-- Fail with an issue and stay where the stream is. -/
def complain {α : Type} (fault : Fault) (token : Token) : Rule α :=
  fun stream => .ok ⟨none, stream, [⟨fault, token⟩], 0⟩

/-- Move on to the next token if it is of the given kind, and complain about it otherwise. -/
def expect (kind : Kind) : Rule Token := do
  let token ← peek
  if token.kind = kind then
    advance
    return token
  else
    complain (.expected kind) token

/-- Follow a rule, then move on to the next token if it is of the given kind, whether or not the
rule succeeded. -/
def passing {α : Type} (kind : Kind) (rule : Rule α) : Rule α :=
  fun stream => (rule stream).map fun reply =>
    if reply.rest.peek.kind = kind then
      { reply with rest := reply.rest.advance }
    else
      reply

/-- Follow a rule and succeed in any case.  A failure counts as one statement given up. -/
def attempt {α : Type} (rule : Rule α) : Rule (Option α) :=
  fun stream => (rule stream).map fun reply =>
    match reply.result with
    | some value => ⟨some (some value), reply.rest, reply.issues, reply.dropped⟩
    | none => ⟨some none, reply.rest, reply.issues, reply.dropped + 1⟩

/-- Follow a rule again and again while the stream asks for more, and gather what it reads. -/
def many {α : Type} (more : Stream → Bool) (rule : Rule α) : Rule (List α) :=
  fun stream =>
    if more stream then
      Rule.bind rule
        (fun first rest =>
          if rest.length < stream.length then
            (many more rule rest).map (Reply.map (first :: ·))
          else
            .error .stuck)
        stream
    else
      .ok ⟨some [], stream, [], 0⟩
termination_by stream => stream.length

/-- Improve a value by a rule again and again while the stream asks for more. -/
def foldWhile {α : Type} (more : Stream → Bool) (rule : α → Rule α) (value : α) : Rule α :=
  fun stream =>
    if more stream then
      Rule.bind (rule value)
        (fun next rest =>
          if rest.length < stream.length then
            foldWhile more rule next rest
          else
            .error .stuck)
        stream
    else
      .ok ⟨some value, stream, [], 0⟩
termination_by stream => stream.length

end Rule

end MarmosetLang
