import MarmosetLang.Proofs.Grammar.Answering
import MarmosetLang.Proofs.Grammar.Reading

/-!
# Issues account for what is given up

A rule that fails leaves one issue behind for its failure, and every statement given up on the way
has one of its own.  So the issues of a whole program are as many as the statements given up in it,
and a program without issues has been read clean.
-/

namespace MarmosetLang

/-- A reply has one issue for every statement given up, and one more if the rule failed. -/
def Reply.Balanced {α : Type} (reply : Reply α) : Prop :=
  reply.issues.length = reply.dropped + if reply.result.isSome then 0 else 1

namespace Rule

/-- If there is an answer on a stream, it is balanced. -/
def Accounted (α : Type) (_ : Stream) (answer : Except Halt (Reply α)) : Prop :=
  ∀ reply, answer = .ok reply → reply.Balanced

variable {α β : Type} {stream : Stream}

theorem accounted_ok {reply : Reply α} (balanced : reply.Balanced) :
    Accounted α stream (.ok reply) := by
  rintro _ ⟨⟩
  exact balanced

theorem accounted_error {reason : Halt} : Accounted α stream (.error reason) :=
  nofun

/-- Changing a reply keeps the account if it keeps the balance. -/
theorem Accounted.map {answer : Except Halt (Reply α)} {change : Reply α → Reply β}
    (accounted : Accounted α stream answer)
    (keeps : ∀ reply, reply.Balanced → (change reply).Balanced) :
    Accounted β stream (answer.map change) := by
  cases answer with
  | error reason => exact accounted_error
  | ok reply => exact accounted_ok (keeps reply (accounted reply rfl))

theorem Accounted.bind {rule : Rule α} {next : α → Rule β}
    (first : Accounted α stream (rule stream))
    (second : ∀ value rest, Accounted β rest (next value rest)) :
    Accounted β stream (Rule.bind rule next stream) := by
  unfold Rule.bind
  rcases answer : rule stream with reason | ⟨_ | value, rest, issues, dropped⟩
  · exact accounted_error
  · exact accounted_ok (first _ answer)
  · have balanced : issues.length = dropped := first _ answer
    refine (second value rest).map fun later later_balanced => ?_
    calc (issues ++ later.issues).length = dropped + later.issues.length := by
          rw [List.length_append, balanced]
      _ = dropped + (later.dropped + if later.result.isSome then 0 else 1) :=
          congrArg _ later_balanced
      _ = _ := (Nat.add_assoc _ _ _).symm

theorem sequential_accounted : Sequential Accounted where
  done := accounted_ok rfl
  stopped := accounted_error
  map accounted := accounted.map fun reply balanced => by
    simpa [Reply.Balanced, Reply.map] using balanced
  bind := Accounted.bind

theorem compositional_accounted : Compositional Accounted where
  pure _ _ := accounted_ok rfl
  halt _ _ := accounted_error
  current _ := accounted_ok rfl
  peek _ := accounted_ok rfl
  advance _ := accounted_ok rfl
  complain _ _ _ := accounted_ok rfl
  bind first second stream := (first stream).bind fun value rest => second value rest
  passing kind always stream := (always stream).map fun reply balanced => by
    split <;> exact balanced
  attempt always stream := (always stream).map fun reply balanced => by
    rcases reply with ⟨_ | value, rest, issues, dropped⟩ <;> exact balanced
  many more always := sequential_accounted.always_many more always
  foldWhile more always := sequential_accounted.always_foldWhile more always

end Rule

namespace Grammar

open Rule (compositional_accounted)

/-- What has no issues has been read clean. -/
theorem reads_of_no_issues {stream : Stream} {parsed : Parsed}
    (parse_eq : parse stream = .ok parsed) (clean : parsed.issues = []) :
    ∃ after, program.Reads stream parsed.program after := by
  unfold parse at parse_eq
  have accounted := compositional_accounted.program stream
  rcases answer : program stream with reason | ⟨result, rest, issues, dropped⟩
  · rw [answer] at parse_eq
    exact nomatch parse_eq
  · rw [answer] at parse_eq
    cases parse_eq
    have balanced : issues.length = dropped + if result.isSome then 0 else 1 :=
      accounted _ answer
    change issues = [] at clean
    subst clean
    cases result with
    | none => exact nomatch balanced
    | some found =>
        have none_dropped : dropped = 0 := balanced.symm
        subst none_dropped
        exact ⟨rest, answer⟩

/-! ## Calls for statements

Statements are called for by one loop, at the top and in blocks.  It goes on behind the last token
of each, whether it was read or given up, and has nothing to say itself. -/

/-- The replies to the calls for statements from one place to another: one call after another until
the current token is of a closing kind. -/
inductive Calls (nested : Nat → Rule Expr) (closing : Kind → Bool) :
    Stream → List (Reply Statement) → Stream → Prop where
  | done {stream : Stream} (closes : closing stream.current.kind = true) :
      Calls nested closing stream [] stream
  | next {stream last : Stream} {call : Reply Statement} {calls : List (Reply Statement)}
      (goes_on : closing stream.current.kind = false) (answer : statement nested stream = .ok call)
      (later : Calls nested closing call.rest.advance calls last) :
      Calls nested closing stream (call :: calls) last

/-- How many statements are given up in some calls: those that the calls were for, and those in
them. -/
def givenUp : List (Reply Statement) → Nat
  | [] => 0
  | call :: calls => (call.dropped + if call.result.isSome then 0 else 1) + givenUp calls

variable {nested : Nat → Rule Expr} {closing : Kind → Bool}

/-- What one call adds to the reply of the loop. -/
def calledFor (call : Reply Statement) : Reply (Option Statement) :=
  ⟨some call.result, call.rest.advance, call.issues,
    call.dropped + if call.result.isSome then 0 else 1⟩

theorem attempt_statement_eq (stream : Stream) :
    (do let found ← Rule.attempt (statement nested); Rule.advance; return found) stream =
      (statement nested stream).map calledFor := by
  change Rule.bind _ _ stream = _
  rw [Rule.bind, Rule.attempt]
  rcases statement nested stream with reason | ⟨_ | found, rest, issues, dropped⟩
  · rfl
  · change Except.ok _ = Except.ok _
    simp [Reply.followedBy, calledFor]
  · change Except.ok _ = Except.ok _
    simp [Reply.followedBy, calledFor]

/-- The replies to the calls add up to that of the loop. -/
theorem exists_calls_of_many {round : Rule (Option Statement)}
    (round_eq : ∀ stream, round stream = (statement nested stream).map calledFor) {stream : Stream}
    {reply : Reply (List (Option Statement))}
    (answer : Rule.many (unclosed closing) round stream = .ok reply) :
    ∃ calls last, Calls nested closing stream calls last ∧
      reply = ⟨some (calls.map Reply.result), last, calls.flatMap Reply.issues, givenUp calls⟩ := by
  induction stream using Rule.many.induct (unclosed closing) generalizing reply with
  | case1 stream go ih =>
      rw [Rule.many, if_pos go] at answer
      unfold Rule.bind at answer
      rw [round_eq] at answer
      rcases called : statement nested stream with reason | call
      · rw [called] at answer
        cases answer
      · rw [called] at answer
        change Except.map _ (ite _ _ _) = _ at answer
        by_cases shorter : call.rest.advance.length < stream.length
        · rw [if_pos shorter] at answer
          rcases answered : Rule.many (unclosed closing) round call.rest.advance with
            reason | others
          · rw [answered] at answer
            cases answer
          · obtain ⟨calls, last, later, rfl⟩ := ih _ shorter answered
            rw [answered] at answer
            cases answer
            have goes_on : closing stream.current.kind = false := by simpa [unclosed] using go
            exact ⟨call :: calls, last, .next goes_on called later, rfl⟩
        · rw [if_neg shorter] at answer
          cases answer
  | case2 stream stop =>
      rw [Rule.many, if_neg stop] at answer
      cases answer
      exact ⟨[], stream, .done (by simpa [unclosed] using stop), rfl⟩

theorem exists_calls_of_statements {stream : Stream} {reply : Reply (List Statement)}
    (answer : statements nested closing stream = .ok reply) :
    ∃ calls last, Calls nested closing stream calls last ∧
      reply =
        ⟨some (calls.filterMap Reply.result), last, calls.flatMap Reply.issues, givenUp calls⟩ := by
  change Rule.bind _ _ stream = .ok reply at answer
  rw [Rule.bind] at answer
  rcases around : Rule.many (unclosed closing)
      (do let found ← Rule.attempt (statement nested); Rule.advance; return found) stream with
    reason | found
  · rw [around] at answer
    cases answer
  · obtain ⟨calls, last, called, rfl⟩ := exists_calls_of_many attempt_statement_eq around
    rw [around] at answer
    cases answer
    refine ⟨calls, last, called, ?_⟩
    simp [Reply.followedBy]

/-- A parse is the calls for the statements at the top. -/
theorem exists_calls_of_parse {stream : Stream} {parsed : Parsed}
    (parse_eq : parse stream = .ok parsed) :
    ∃ calls last, Calls expression (fun kind => kind = .eof) stream calls last ∧
      parsed =
        ⟨⟨calls.filterMap Reply.result⟩, calls.flatMap Reply.issues, givenUp calls⟩ := by
  change (Rule.bind (statements expression fun kind => kind = .eof) _ stream).map _ = _ at parse_eq
  rw [Rule.bind] at parse_eq
  rcases around : statements expression (fun kind => kind = .eof) stream with reason | found
  · rw [around] at parse_eq
    cases parse_eq
  · obtain ⟨calls, last, called, rfl⟩ := exists_calls_of_statements around
    rw [around] at parse_eq
    cases parse_eq
    refine ⟨calls, last, called, ?_⟩
    simp [Reply.followedBy]

/-- The rules for the expressions in a statement: at the top any one may be read, inside another one
only with fewer tokens ahead. -/
def IsInner (nested : Nat → Rule Expr) : Prop :=
  nested = expression ∨ ∃ bound, nested = expressionBelow bound

/-- A call for a statement has one issue for each statement given up in it, and just one more if it
is given up itself. -/
theorem balanced_of_statement (inner : IsInner nested) {stream : Stream} {call : Reply Statement}
    (answer : statement nested stream = .ok call) : call.Balanced := by
  rcases inner with rfl | ⟨bound, rfl⟩
  · exact compositional_accounted.statement compositional_accounted.expression stream call answer
  · exact compositional_accounted.statement (compositional_accounted.expressionBelow bound) stream
      call answer

theorem Calls.balanced (inner : IsInner nested) {stream last : Stream}
    {calls : List (Reply Statement)} (called : Calls nested closing stream calls last) :
    (calls.flatMap Reply.issues).length = givenUp calls := by
  induction called with
  | done => rfl
  | @next stream last call calls goes_on answer later ih =>
      have balanced : call.issues.length = call.dropped + if call.result.isSome then 0 else 1 :=
        balanced_of_statement inner answer
      rw [List.flatMap_cons, List.length_append, ih, balanced]
      rfl

/-- A stream is parsed with as many issues as statements are given up, at any depth, and so without
issues exactly if none is.  The statements given up are those of the calls at the top and in blocks
that read none, with the ones in these calls; and every call has one issue for each statement given
up in it, and just one more if it reads none itself. -/
theorem one_issue_each (stream : Stream) (short : stream.Short) :
    ∃ parsed, parse stream = .ok parsed ∧
      parsed.issues.length = parsed.dropped ∧ (parsed.issues = [] ↔ parsed.dropped = 0) ∧
      (∃ calls last, Calls expression (fun kind => kind = .eof) stream calls last ∧
        parsed =
          ⟨⟨calls.filterMap Reply.result⟩, calls.flatMap Reply.issues, givenUp calls⟩) ∧
      (∀ (nested : Nat → Rule Expr) (closing : Kind → Bool) (start : Stream)
        (found : Reply (List Statement)), statements nested closing start = .ok found →
          ∃ calls last, Calls nested closing start calls last ∧
            found = ⟨some (calls.filterMap Reply.result), last, calls.flatMap Reply.issues,
              givenUp calls⟩) ∧
      ∀ (nested : Nat → Rule Expr) (start : Stream) (call : Reply Statement), IsInner nested →
        statement nested start = .ok call →
          call.issues.length = call.dropped + if call.result.isSome then 0 else 1 := by
  obtain ⟨parsed, parse_eq⟩ := exists_parse_eq short
  obtain ⟨calls, last, called, rfl⟩ := exists_calls_of_parse parse_eq
  have balanced := called.balanced (.inl rfl)
  refine ⟨_, parse_eq, balanced, ?_, ⟨calls, last, called, rfl⟩, ?_, ?_⟩
  · rw [← List.length_eq_zero_iff, balanced]
  · intro nested closing start found answer
    exact exists_calls_of_statements answer
  · intro nested start call inner answer
    exact balanced_of_statement inner answer

/-- A text in which three statements are given up: one at the top, one in a block, and the one that
the block is in. -/
theorem one_issue_each_sample :
    let stream := Stream.ofText "let 1; (fn() \x7b ) \x7d"
    stream.Short ∧ ∃ parsed, parse stream = .ok parsed ∧
      parsed.issues.length = parsed.dropped ∧ (parsed.issues = [] ↔ parsed.dropped = 0) := by
  intro stream
  have short : stream.Short := by
    change ∀ token ∈ Token.scan "let 1; (fn() \x7b ) \x7d", _
    decide +kernel
  obtain ⟨parsed, parse_eq, length_eq, none_iff, -⟩ := one_issue_each stream short
  exact ⟨short, parsed, parse_eq, length_eq, none_iff⟩

end Grammar
end MarmosetLang
