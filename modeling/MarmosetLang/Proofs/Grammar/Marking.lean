import MarmosetLang.Proofs.Grammar.Lockstep

/-!
# Marks where expressions begin

The rules of the grammar are given the rule by which they read the expressions inside a construct.
So a parse can be watched without touching the grammar: the rule that is given to them leaves a mark
among the issues wherever an expression begins, and then reads it as ever.  Marks are only more
issues.  Nothing else about a parse depends on them, and without any marks it is the parse itself.
-/

namespace MarmosetLang

/-- No marks at all. -/
def noMarks : Stream → List Issue :=
  fun _ => []

/-- Leave the marks of the stream in front of the issues of a rule. -/
def Rule.marked {α : Type} (mark : Stream → List Issue) (rule : Rule α) : Rule α :=
  fun stream => (rule stream).map fun reply => { reply with issues := mark stream ++ reply.issues }

namespace Grammar

/-- Read an expression, and leave marks wherever an expression begins on the way. -/
def markedExpression (mark : Stream → List Issue) (precedence : Nat) : Rule Expr :=
  fun stream =>
    Rule.marked mark
      (expressionOver
        (fun tighter inner =>
          if inner.length < stream.length then
            markedExpression mark tighter inner
          else
            .error .stuck)
        precedence)
      stream
termination_by stream => stream.length

/-- Read an expression, which has to begin with fewer tokens ahead than the given number, and leave
marks. -/
def markedBelow (mark : Stream → List Issue) (bound precedence : Nat) : Rule Expr :=
  fun stream =>
    if stream.length < bound then markedExpression mark precedence stream else .error .stuck

/-- Read statements up to the end of the stream, and leave marks. -/
def markedProgram (mark : Stream → List Issue) : Rule Program := do
  let found ← statements (markedExpression mark) fun kind => kind = .eof
  return ⟨found⟩

/-- Parse a stream of tokens, and leave marks. -/
def markedParse (mark : Stream → List Issue) (stream : Stream) : Except Halt Parsed :=
  (markedProgram mark stream).map fun reply =>
    ⟨reply.result.getD ⟨[]⟩, reply.issues, reply.dropped⟩

variable {mark : Stream → List Issue}

theorem markedExpression_eq (precedence : Nat) (stream : Stream) :
    markedExpression mark precedence stream =
      Rule.marked mark (expressionOver (markedBelow mark stream.length) precedence) stream := by
  rw [markedExpression]
  rfl

/-! ## Without marks -/

theorem marked_noMarks {α : Type} (rule : Rule α) : Rule.marked noMarks rule = rule := by
  funext stream
  rw [Rule.marked]
  cases rule stream <;> rfl

theorem markedBelow_noMarks (bound : Nat) : markedBelow noMarks bound = expressionBelow bound := by
  induction bound using Nat.strongRecOn with
  | ind bound ih =>
      funext precedence stream
      rw [markedBelow, expressionBelow]
      split
      · rename_i few
        rw [markedExpression_eq, expression_eq, marked_noMarks, ih _ few]
      · rfl

theorem markedExpression_noMarks : markedExpression noMarks = expression := by
  funext precedence stream
  rw [markedExpression_eq, expression_eq, marked_noMarks, markedBelow_noMarks]

theorem markedParse_noMarks (stream : Stream) : markedParse noMarks stream = parse stream := by
  rw [markedParse, parse, markedProgram, program, markedExpression_noMarks]

end Grammar

/-! ## With marks -/

/-- The second list has marks among the issues of the first one. -/
inductive Woven (mark : Stream → List Issue) : List Issue → List Issue → Prop where
  | nil : Woven mark [] []
  | issue {issues more : List Issue} (issue : Issue) (woven : Woven mark issues more) :
      Woven mark (issue :: issues) (issue :: more)
  | mark {issues more : List Issue} {stream : Stream} {issue : Issue} (left : issue ∈ mark stream)
      (woven : Woven mark issues more) : Woven mark issues (issue :: more)

namespace Woven

variable {mark : Stream → List Issue} {issues others more several : List Issue}

theorem refl (issues : List Issue) : Woven mark issues issues := by
  induction issues with
  | nil => exact .nil
  | cons issue issues ih => exact .issue issue ih

theorem append (first : Woven mark issues more) (second : Woven mark others several) :
    Woven mark (issues ++ others) (more ++ several) := by
  induction first with
  | nil => exact second
  | issue issue _ ih => exact .issue issue ih
  | mark left _ ih => exact .mark left ih

theorem marks_append {stream : Stream} {marks : List Issue}
    (left : ∀ issue ∈ marks, issue ∈ mark stream) (woven : Woven mark issues more) :
    Woven mark issues (marks ++ more) := by
  induction marks with
  | nil => exact woven
  | cons issue marks ih =>
      obtain ⟨first, rest⟩ := List.forall_mem_cons.mp left
      exact .mark first (ih rest)

/-- Issues that are no marks are what is left when marks are taken away. -/
theorem filter_eq {isMark : Issue → Bool} (marks : ∀ stream, ∀ issue ∈ mark stream, isMark issue)
    (no_marks : ∀ issue ∈ issues, isMark issue = false) (woven : Woven mark issues more) :
    more.filter (fun issue => !isMark issue) = issues := by
  induction woven with
  | nil => rfl
  | issue issue _ ih =>
      obtain ⟨first, rest⟩ := List.forall_mem_cons.mp no_marks
      rw [List.filter_cons_of_pos (by simp [first]), ih rest]
  | @mark _ _ stream issue left _ ih =>
      rw [List.filter_cons_of_neg (by simp [marks stream issue left]), ih no_marks]

end Woven

namespace Rule

variable {mark : Stream → List Issue} {α β : Type} {change : α → α} {then_change : β → β}

/-- The second answer is the first one with marks among its issues, given what a construct of the
first one is in the second. -/
inductive Overlaid (mark : Stream → List Issue) (change : α → α) :
    Except Halt (Reply α) → Except Halt (Reply α) → Prop where
  | error (reason : Halt) : Overlaid mark change (.error reason) (.error reason)
  | ok {result : Option α} {rest : Stream} {issues more : List Issue} {dropped : Nat}
      (woven : Woven mark issues more) :
      Overlaid mark change (.ok ⟨result, rest, issues, dropped⟩)
        (.ok ⟨result.map change, rest, more, dropped⟩)

/-- What is done to both replies may bring in issues, which come in front of the marks. -/
theorem Overlaid.map {answer other : Except Halt (Reply α)} {turn turned : Reply α → Reply β}
    (overlaid : Overlaid mark change answer other)
    (keeps : ∀ result rest issues more dropped, Woven mark issues more →
      Overlaid mark then_change (.ok (turn ⟨result, rest, issues, dropped⟩))
        (.ok (turned ⟨result.map change, rest, more, dropped⟩))) :
    Overlaid mark then_change (answer.map turn) (other.map turned) := by
  cases overlaid with
  | error reason => exact .error reason
  | ok woven => exact keeps _ _ _ _ _ woven

theorem Overlaid.bind {rule other : Rule α} {next then_next : α → Rule β} {stream : Stream}
    (first : Overlaid mark change (rule stream) (other stream))
    (second : ∀ value rest,
      Overlaid mark then_change (next value rest) (then_next (change value) rest)) :
    Overlaid mark then_change (Rule.bind rule next stream)
      (Rule.bind other then_next stream) := by
  rw [Rule.bind, Rule.bind]
  generalize rule stream = answer at first
  generalize other stream = copied at first
  cases first with
  | error reason => exact .error reason
  | @ok result rest issues more dropped woven =>
      cases result with
      | none => exact .ok woven
      | some value =>
          exact (second value rest).map fun result last later several given_up later_woven =>
            .ok (woven.append later_woven)

/-- Steps look at no issues. -/
theorem parallel_overlaid (mark : Stream → List Issue) : Parallel (Overlaid mark) where
  error := .error
  ok reply := .ok (.refl _)
  cons first overlaid := overlaid.map fun result last issues more dropped woven => by
    cases result <;> exact .ok woven
  bind := Overlaid.bind
  passing kind overlaid := overlaid.map fun result rest issues more dropped woven => by
    dsimp only
    split <;> exact .ok woven
  attempt overlaid := overlaid.map fun result rest issues more dropped woven => by
    cases result <;> exact .ok woven

theorem overlaid_marked {rule other : Rule α} {stream : Stream}
    (overlaid : Overlaid mark change (rule stream) (other stream)) :
    Overlaid mark change (rule stream) (marked mark other stream) := by
  rw [marked]
  generalize rule stream = answer at overlaid
  generalize other stream = copied at overlaid
  cases overlaid with
  | error reason => exact .error reason
  | ok woven => exact .ok (woven.marks_append fun _ => id)

end Rule

namespace Grammar

open Rule

variable {mark : Stream → List Issue}

theorem alongside_markedBelow (bound precedence : Nat) :
    Alongside (OnSame (Overlaid mark)) (Expr.relocate id) (expressionBelow bound precedence)
      (markedBelow mark bound precedence) := by
  induction bound using Nat.strongRecOn generalizing precedence with
  | ind bound ih =>
      rintro stream _ rfl
      rw [expressionBelow, markedBelow]
      split
      · rename_i few
        rw [expression_eq, markedExpression_eq]
        refine overlaid_marked ?_
        exact (parallel_overlaid mark).lockstep.expressionOver (ih _ few) precedence _ _ rfl
      · exact .error .stuck

theorem alongside_markedExpression (precedence : Nat) :
    Alongside (OnSame (Overlaid mark)) (Expr.relocate id) (expression precedence)
      (markedExpression mark precedence) := by
  rintro stream _ rfl
  rw [expression_eq, markedExpression_eq]
  have steps := (parallel_overlaid mark).lockstep
  exact overlaid_marked (steps.expressionOver (alongside_markedBelow _) precedence _ _ rfl)

/-- Marks are all that a parse that leaves them has besides. -/
theorem exists_markedParse_eq {stream : Stream} {parsed : Parsed}
    (parse_eq : parse stream = .ok parsed) :
    ∃ more, markedParse mark stream = .ok ⟨parsed.program, more, parsed.dropped⟩ ∧
      Woven mark parsed.issues more := by
  have steps := (parallel_overlaid mark).lockstep
  have alongside : Alongside (OnSame (Overlaid mark)) (Program.relocate id) program
      (markedProgram mark) :=
    steps.bind (steps.statements alongside_markedExpression _) fun _ => steps.pure rfl
  have overlaid := alongside stream stream rfl
  rw [parse] at parse_eq
  rw [markedParse]
  generalize program stream = answer at overlaid parse_eq
  generalize markedProgram mark stream = other at overlaid
  cases overlaid with
  | error reason => cases parse_eq
  | @ok result rest issues more dropped woven =>
      cases parse_eq
      refine ⟨more, ?_, woven⟩
      cases result with
      | none => rfl
      | some found => rw [Option.map_some, Program.relocate_id]; rfl

end Grammar
end MarmosetLang
