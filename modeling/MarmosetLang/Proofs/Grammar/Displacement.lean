import MarmosetLang.Proofs.Grammar.Lockstep

/-!
# Displaced tokens

No rule of the grammar looks at the places of tokens.  Parsing a stream with its tokens at other
places gives the same statements and the same issues, with their tokens at those places.
-/

namespace MarmosetLang

/-- The stream with its tokens at other places. -/
def Stream.relocate (move : Nat → Nat) (stream : Stream) : Stream where
  tokens := stream.tokens.map (Token.relocate move)
  ending := stream.ending.relocate move
  kind_ne_eof token member := by
    obtain ⟨original, listed, rfl⟩ := List.mem_map.mp member
    exact stream.kind_ne_eof original listed
  kind_ending := stream.kind_ending

/-- The issue with its token at another place. -/
def Issue.relocate (move : Nat → Nat) (issue : Issue) : Issue :=
  { issue with token := issue.token.relocate move }

/-- The reply with all tokens at other places, given what that makes of its construct. -/
def Reply.relocate {α : Type} (move : Nat → Nat) (change : α → α) (reply : Reply α) : Reply α :=
  ⟨reply.result.map change, reply.rest.relocate move, reply.issues.map (Issue.relocate move),
    reply.dropped⟩

/-- The outcome of parsing with all tokens at other places. -/
def Parsed.relocate (move : Nat → Nat) (parsed : Parsed) : Parsed :=
  ⟨parsed.program.relocate move, parsed.issues.map (Issue.relocate move), parsed.dropped⟩

theorem Issue.message_relocate (move : Nat → Nat) (issue : Issue) :
    (issue.relocate move).message = issue.message := rfl

namespace Stream

variable (move : Nat → Nat) (stream : Stream)

@[simp]
theorem length_relocate : (stream.relocate move).length = stream.length :=
  List.length_map _

@[simp]
theorem current_relocate : (stream.relocate move).current = stream.current.relocate move := by
  cases stream with
  | mk tokens ending _ _ => cases tokens <;> rfl

@[simp]
theorem advance_relocate : (stream.relocate move).advance = stream.advance.relocate move := by
  simp only [relocate, advance, List.map_tail]

@[simp]
theorem peek_relocate : (stream.relocate move).peek = stream.peek.relocate move := by
  rw [← current_advance, advance_relocate, current_relocate, current_advance]

end Stream

namespace Rule

variable {move : Nat → Nat} {α β : Type} {change : α → α} {stream : Stream}

/-- On the stream with its tokens at other places, the answer has them there. -/
def Displaced (move : Nat → Nat) : Bond :=
  fun change stream copy answer other =>
    copy = stream.relocate move → other = answer.map (Reply.relocate move change)

theorem Alongside.displaced_eq {rule other : Rule α}
    (alongside : Alongside (Displaced move) change rule other) (stream : Stream) :
    other (stream.relocate move) = (rule stream).map (Reply.relocate move change) :=
  alongside stream _ rfl

theorem alongside_displaced {rule other : Rule α}
    (eq : ∀ stream,
      other (stream.relocate move) = (rule stream).map (Reply.relocate move change)) :
    Alongside (Displaced move) change rule other := by
  rintro stream _ rfl
  exact eq stream

/-- What is done to all replies is done to those with tokens at other places as well. -/
theorem map_relocate {then_change : β → β} {turn turned : Reply α → Reply β}
    (comm : ∀ reply, turned (reply.relocate move change) = (turn reply).relocate move then_change)
    (answer : Except Halt (Reply α)) :
    (answer.map (Reply.relocate move change)).map turned =
      (answer.map turn).map (Reply.relocate move then_change) := by
  cases answer with
  | error reason => rfl
  | ok reply => exact congrArg Except.ok (comm reply)

/-- One rule after another, the second one on the stream that the first one leaves. -/
theorem bind_relocate {then_change : β → β} {rule other : Rule α} {next then_next : α → Rule β}
    (first : other (stream.relocate move) = (rule stream).map (Reply.relocate move change))
    (second : ∀ value rest, then_next (change value) (rest.relocate move) =
      (next value rest).map (Reply.relocate move then_change)) :
    Rule.bind other then_next (stream.relocate move) =
      (Rule.bind rule next stream).map (Reply.relocate move then_change) := by
  rw [Rule.bind, Rule.bind, first]
  rcases rule stream with reason | ⟨_ | value, rest, issues, dropped⟩
  · rfl
  · rfl
  · change (then_next (change value) (rest.relocate move)).map _ =
      ((next value rest).map _).map (Reply.relocate move then_change)
    rw [second]
    refine map_relocate (fun later => ?_) (next value rest)
    simp only [Reply.relocate, Reply.followedBy, List.map_append]

/-- A loop that looks at kinds only goes on at the same tokens, wherever they are. -/
theorem more_relocate {more : Stream → Bool} (kinds : ByKinds more) :
    more (stream.relocate move) = more stream :=
  kinds _ _ (by rw [Stream.current_relocate]; rfl) (by rw [Stream.peek_relocate]; rfl)

theorem many_relocate {rule other : Rule α} {more : Stream → Bool} (kinds : ByKinds more)
    (alongside : Alongside (Displaced move) change rule other) (stream : Stream) :
    many more other (stream.relocate move) =
      (many more rule stream).map (Reply.relocate move (List.map change)) := by
  induction stream using many.induct more with
  | case1 stream go ih =>
      rw [many, many, more_relocate kinds, if_pos go, if_pos go]
      refine bind_relocate (alongside.displaced_eq stream) fun first rest => ?_
      rw [Stream.length_relocate, Stream.length_relocate]
      split
      · rename_i shorter
        rw [ih rest shorter]
        rcases many more rule rest with reason | ⟨_ | others, last, issues, dropped⟩ <;> rfl
      · rfl
  | case2 stream stop =>
      rw [many, many, more_relocate kinds, if_neg stop, if_neg stop]
      rfl

theorem foldWhile_relocate {rule other : α → Rule α} {more : Stream → Bool} (kinds : ByKinds more)
    (alongside : ∀ value, Alongside (Displaced move) change (rule value) (other (change value)))
    (value : α) (stream : Stream) :
    foldWhile more other (change value) (stream.relocate move) =
      (foldWhile more rule value stream).map (Reply.relocate move change) := by
  induction value, stream using foldWhile.induct more with
  | case1 value stream go ih =>
      rw [foldWhile, foldWhile, more_relocate kinds, if_pos go, if_pos go]
      refine bind_relocate ((alongside value).displaced_eq stream) fun next rest => ?_
      rw [Stream.length_relocate, Stream.length_relocate]
      split
      · rename_i shorter
        exact ih next rest shorter
      · rfl
  | case2 value stream stop =>
      rw [foldWhile, foldWhile, more_relocate kinds, if_neg stop, if_neg stop]
      rfl

theorem lockstep_displaced (move : Nat → Nat) : Lockstep move (Displaced move) where
  pure value_eq := alongside_displaced fun _ => by rw [value_eq]; rfl
  halt _ := alongside_displaced fun _ => rfl
  current := alongside_displaced fun stream => by
    rw [Rule.current, Stream.current_relocate]
    rfl
  peek := alongside_displaced fun stream => by
    rw [Rule.peek, Stream.peek_relocate]
    rfl
  advance := alongside_displaced fun stream => by
    rw [Rule.advance, Stream.advance_relocate]
    rfl
  complain _ _ := alongside_displaced fun _ => rfl
  bind first second := alongside_displaced fun stream =>
    bind_relocate (first.displaced_eq stream) fun value => (second value).displaced_eq
  passing kind alongside := alongside_displaced fun stream => by
    rw [Rule.passing, Rule.passing, alongside.displaced_eq]
    refine map_relocate (fun reply => ?_) _
    simp only [Reply.relocate, Stream.peek_relocate, Token.kind_relocate]
    split
    · rw [Stream.advance_relocate]
    · rfl
  attempt alongside := alongside_displaced fun stream => by
    rw [Rule.attempt, Rule.attempt, alongside.displaced_eq]
    refine map_relocate (fun reply => ?_) _
    rcases reply with ⟨_ | value, rest, issues, dropped⟩ <;> rfl
  many kinds alongside := alongside_displaced (many_relocate kinds alongside)
  foldWhile kinds alongside value := alongside_displaced (foldWhile_relocate kinds alongside value)

end Rule

namespace Grammar

open Rule

variable (move : Nat → Nat)

theorem alongside_expressionBelow (bound precedence : Nat) :
    Alongside (Displaced move) (Expr.relocate move) (expressionBelow bound precedence)
      (expressionBelow bound precedence) := by
  induction bound using Nat.strongRecOn generalizing precedence with
  | ind bound ih =>
      refine alongside_displaced fun stream => ?_
      rw [expressionBelow, expressionBelow, Stream.length_relocate]
      split
      · rename_i few
        rw [expression_eq, expression_eq, Stream.length_relocate]
        exact ((lockstep_displaced move).expressionOver (ih _ few) precedence).displaced_eq stream
      · rfl

theorem alongside_expression (precedence : Nat) :
    Alongside (Displaced move) (Expr.relocate move) (expression precedence)
      (expression precedence) := by
  refine alongside_displaced fun stream => ?_
  rw [expression_eq, expression_eq, Stream.length_relocate]
  have inside := alongside_expressionBelow move stream.length
  exact ((lockstep_displaced move).expressionOver inside precedence).displaced_eq stream

theorem program_relocate (stream : Stream) :
    program (stream.relocate move) =
      (program stream).map (Reply.relocate move (Program.relocate move)) := by
  have steps := lockstep_displaced move
  have alongside : Alongside (Displaced move) (Program.relocate move) program program :=
    steps.bind (steps.statements (alongside_expression move) _) fun _ => steps.pure rfl
  exact alongside.displaced_eq stream

/-- Parsing does not depend on the places of tokens. -/
theorem parse_relocate (stream : Stream) :
    parse (stream.relocate move) = (parse stream).map (Parsed.relocate move) := by
  rw [parse, parse, program_relocate]
  rcases program stream with reason | ⟨_ | found, rest, issues, dropped⟩ <;> rfl

end Grammar
end MarmosetLang
