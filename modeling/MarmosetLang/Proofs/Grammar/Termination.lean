import MarmosetLang.Proofs.Grammar.Answering
import MarmosetLang.Proofs.Grammar.Lockstep

/-!
# Parsing terminates

Loops and nested expressions are guarded: they go on only with fewer tokens ahead, and would be
stuck otherwise.  No guard is ever needed.  A loop goes round only with a rule that leaves fewer
tokens ahead or fails, and what an expression asks of the ones inside it, it asks on shorter
streams.  So the grammar without its guards is the same, and parsing comes to an end on every
stream.
-/

namespace MarmosetLang
namespace Rule

/-! ## Rules without guards

A rule is followed side by side with one that has fewer guards. -/

variable {α β : Type} {change : α → α} {then_change : β → β} {stream : Stream}

/-- The second answer is the first one, unless a guard has stopped the first one. -/
def Unstopped : Tie :=
  fun change answer other => answer ≠ .error .stuck → other = answer.map (Reply.map change)

theorem ne_stuck_of_map {answer : Except Halt (Reply α)} {turn : Reply α → Reply β}
    (free : answer.map turn ≠ .error .stuck) : answer ≠ .error .stuck := by
  rintro rfl
  exact free rfl

/-- What is done to all replies may be done on either side. -/
theorem Unstopped.map {answer other : Except Halt (Reply α)} {turn turned : Reply α → Reply β}
    (unstopped : Unstopped change answer other)
    (comm : ∀ reply, turned (reply.map change) = (turn reply).map then_change) :
    Unstopped then_change (answer.map turn) (other.map turned) := by
  intro free
  rw [unstopped (ne_stuck_of_map free)]
  cases answer with
  | error reason => rfl
  | ok reply => exact congrArg Except.ok (comm reply)

theorem Unstopped.bind {rule other : Rule α} {next then_next : α → Rule β}
    (first : Unstopped change (rule stream) (other stream))
    (second : ∀ value rest,
      Unstopped then_change (next value rest) (then_next (change value) rest)) :
    Unstopped then_change (Rule.bind rule next stream) (Rule.bind other then_next stream) := by
  intro free
  rw [Rule.bind] at free ⊢
  rw [Rule.bind]
  rcases answer : rule stream with reason | ⟨_ | value, rest, issues, dropped⟩
  · rw [answer] at first free
    have moving : Except.error reason ≠ (.error .stuck : Except Halt (Reply α)) := by
      rintro ⟨⟩
      exact free rfl
    rw [first moving]
    rfl
  · rw [answer] at first
    rw [first (by simp)]
    rfl
  · rw [answer] at first free
    rw [first (by simp)]
    exact (second value rest).map (fun _ => rfl) free

/-- Guards that have not stopped a rule might as well not be there. -/
theorem parallel_unstopped : Parallel Unstopped where
  error _ _ := rfl
  ok _ _ := rfl
  cons first unstopped := unstopped.map fun reply => by
    rcases reply with ⟨_ | others, _⟩ <;> rfl
  bind := Unstopped.bind
  passing kind unstopped := unstopped.map fun reply => by
    by_cases same : reply.rest.peek.kind = kind <;> simp [Reply.map, same]
  attempt unstopped := unstopped.map fun reply => by
    rcases reply with ⟨_ | value, rest, issues, dropped⟩ <;> rfl

end Rule

namespace Grammar

open Rule

/-! ## Expressions inside others -/

/-- An expression asks for the ones inside it on shorter streams only.  What a rule for them would
do on any other stream makes no difference, not even whether it would come to an end there. -/
theorem expressionOver_eq {nested : Nat → Rule Expr} {precedence : Nat} {stream : Stream}
    (le : lowest ≤ precedence)
    (same : ∀ tighter inner, inner.length < stream.length →
      nested tighter inner = expression tighter inner) :
    expressionOver nested precedence stream = expression precedence stream := by
  have unmoved : Expr.relocate id = id := funext Expr.relocate_id
  have inside (tighter : Nat) : Alongside (OnSame Unstopped) (Expr.relocate id)
      (expressionBelow stream.length tighter) (nested tighter) := by
    rintro inner copy rfl free
    rw [expressionBelow] at free ⊢
    split at free
    · rename_i shorter
      rw [if_pos shorter, same tighter copy shorter, unmoved, map_id]
    · exact absurd rfl free
  have guarded : (expressionOver (expressionBelow stream.length) precedence).Proceeds stream :=
    proceeds_expressionOver (ready_expressionBelow _) le (Nat.le_refl _)
  have steps := parallel_unstopped.lockstep
  rw [steps.expressionOver inside precedence stream stream rfl guarded.ne_stuck, unmoved, map_id,
    ← expression_eq]

/-! ## Loops -/

/-- The loops of the grammar: while there is more of something, it goes round with a rule. -/
inductive Loop : {α : Type} → (Stream → Bool) → Rule α → Prop
  /-- Statements are read, or given up, until one of the kinds that close them. -/
  | statements (closing : Kind → Bool) (closed : closing .eof = true) :
      Loop (unclosed closing) do
        let found ← Rule.attempt (statement expression)
        Rule.advance
        return found
  /-- The names of parameters have commas between them. -/
  | names : Loop (followedBy .comma) do
      Rule.advance
      Rule.expect .identifier
  /-- So have the elements of arrays and the arguments of calls. -/
  | items : Loop (followedBy .comma) do
      Rule.advance
      Rule.advance
      expression lowest
  /-- The pairs of a hash literal go on to its brace. -/
  | pairs : Loop (notFollowedBy .closeBrace) (pair expression)
  /-- Expressions are extended by whatever binds tightly enough. -/
  | extensions (precedence : Nat) (le : lowest ≤ precedence) (left : Expr) :
      Loop (continues precedence) (extend expression left)

variable {α : Type} {more : Stream → Bool} {round : Rule α} {stream : Stream}

/-- Wherever a loop goes round, its rule comes to an end, and leaves fewer tokens ahead unless it
fails and the loop is left. -/
theorem Loop.answers (loop : Loop more round) (go : more stream = true) :
    round.Answers stream fun _ rest => rest.length < stream.length := by
  have ready := ready_expression (stream.length + 1)
  have fits : Fits (stream.length + 1) stream := Nat.lt_succ_self _
  cases loop with
  | statements closing closed => exact answers_attempt_statement ready closed go fits
  | names => exact answers_name
  | items => exact answers_item ready go fits
  | pairs => exact answers_pair ready fits.advance
  | extensions precedence le left =>
      exact answers_extend ready left (mem_extensions_of_continues le go) fits.advance.advance

/-- With nothing ahead, a loop that still goes round fails and is left. -/
theorem Loop.fails (loop : Loop more round) (nothing : stream.tokens = [])
    (go : more stream = true) :
    ∃ reply, round stream = .ok reply ∧ reply.result = none := by
  obtain ⟨digits, long, -⟩ | ⟨reply, answer, -, shorter⟩ := loop.answers go
  · obtain ⟨-, token, member, -⟩ := long
    rw [nothing] at member
    exact absurd member List.not_mem_nil
  · refine ⟨reply, answer, Option.eq_none_iff_forall_not_mem.mpr fun value found => ?_⟩
    have fewer := shorter value found
    rw [Stream.length, Stream.length, nothing] at fewer
    exact Nat.not_lt_zero _ fewer

/-! ## Programs -/

theorem parse_eq_or_halts (stream : Stream) :
    (∃ parsed, parse stream = .ok parsed) ∨
      ∃ digits, stream.HasLong digits ∧ parse stream = .error (.numeralTooLong digits) := by
  have proceeds : program.Proceeds stream := proceeds_program
  obtain ⟨digits, long, answer⟩ | ⟨reply, answer, -⟩ := proceeds
  · exact .inr ⟨digits, long, by rw [parse, answer]; rfl⟩
  · exact .inl ⟨_, by rw [parse, answer]; rfl⟩

/-- Parsing comes to an end on every stream.  It stops at a numeral that is too long to be
converted, or it has an outcome.  Expressions inside another one begin on shorter streams, every
loop goes round with fewer tokens ahead or is left, and at the end of the stream no loop goes round
to any effect. -/
theorem parse_terminates (stream : Stream) :
    ((∃ parsed, parse stream = .ok parsed) ∨
      ∃ digits, stream.HasLong digits ∧ parse stream = .error (.numeralTooLong digits)) ∧
    (∀ (nested : Nat → Rule Expr) (precedence : Nat), lowest ≤ precedence →
      (∀ tighter inner, inner.length < stream.length →
        nested tighter inner = expression tighter inner) →
      expressionOver nested precedence stream = expression precedence stream) ∧
    (∀ {α : Type} (more : Stream → Bool) (round : Rule α), Loop more round → more stream = true →
      round.Answers stream fun _ rest => rest.length < stream.length) ∧
    ∀ {α : Type} (more : Stream → Bool) (round : Rule α), Loop more round → stream.tokens = [] →
      more stream = true → ∃ reply, round stream = .ok reply ∧ reply.result = none := by
  refine ⟨parse_eq_or_halts stream, ?_, ?_, ?_⟩
  · intro nested precedence le same
    exact expressionOver_eq le same
  · intro α more round loop go
    exact loop.answers go
  · intro α more round loop nothing go
    exact loop.fails nothing go

/-- A brace that opens a hash literal, and nothing behind it. -/
theorem parse_terminates_unclosed :
    let stream := Stream.ofText "\x7b"
    (∃ parsed, parse stream = .ok parsed) ∧
      expressionOver expression lowest stream = expression lowest stream ∧
      (pair expression).Answers stream (fun _ rest => rest.length < stream.length) ∧
      ∃ reply, pair expression stream.advance = .ok reply ∧ reply.result = none := by
  intro stream
  have tokens_eq : stream.tokens = [⟨.openBrace, "\x7b", 0⟩] := by decide +kernel
  have short : stream.Short := by
    rw [Stream.Short, tokens_eq]
    decide
  obtain ⟨ends, inside, loops, -⟩ := parse_terminates stream
  refine ⟨ends.resolve_right ?_, ?_, ?_, ?_⟩
  · rintro ⟨digits, long, -⟩
    exact short.not_hasLong long
  · exact inside expression lowest (Nat.le_refl _) fun _ _ _ => rfl
  · exact loops _ _ .pairs (by decide +kernel)
  · exact (parse_terminates stream.advance).2.2.2 _ _ .pairs (by decide +kernel) (by decide +kernel)

end Grammar
end MarmosetLang
