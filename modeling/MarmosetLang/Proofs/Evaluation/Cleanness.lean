import MarmosetLang.Proofs.Evaluation.Plain

/-!
# Signals never become data

Started on a clean store, evaluation leaves a clean one, and whatever it finishes with is a plain
value or a signal that wraps nothing but a plain value.  Since every signal is handed on as soon as
it is received, operations are applied to plain values only: evaluation is the same for all
operations that agree on those.
-/

namespace MarmosetLang

open Value

/-- A run has come to the same end as another one, with a clean store and, if it has finished, an
answer of a certain sort. -/
structure Run.Settled {α : Type} (Holds : α → Prop) (result other : Outcome α × Store) :
    Prop where
  /-- Both runs have come to the same end. -/
  same : result = other
  /-- The store is clean. -/
  clean : result.2.IsClean
  /-- The answer is of that sort. -/
  holds : ∀ answer, result.1 = .finished answer → Holds answer

/-- Started on a clean store, a run does the same as another one, leaves a clean store, and finishes
with answers of a certain sort only. -/
def Run.Agrees {α : Type} (run other : Run α) (Holds : α → Prop) : Prop :=
  ∀ store, store.IsClean → Settled Holds (run store) (other store)

namespace Run.Agrees

variable {α β : Type} {run other : Run α} {Holds More : α → Prop} {Later : β → Prop}

theorem imp (agrees : run.Agrees other Holds) (weaker : ∀ answer, Holds answer → More answer) :
    run.Agrees other More := by
  intro store clean
  obtain ⟨same, later_clean, holds⟩ := agrees store clean
  exact ⟨same, later_clean, fun answer finished => weaker answer (holds answer finished)⟩

protected theorem pure {answer : α} (holds : Holds answer) :
    Run.Agrees (pure answer) (pure answer) Holds := by
  intro store clean
  refine ⟨rfl, clean, ?_⟩
  rintro _ ⟨⟩
  exact holds

/-- One run after another.  An exhausted run stops both. -/
protected theorem bind {next next_other : α → Run β} (first : run.Agrees other Holds)
    (second : ∀ answer, Holds answer → (next answer).Agrees (next_other answer) Later) :
    Run.Agrees (run >>= next) (other >>= next_other) Later := by
  intro store clean
  obtain ⟨same, later_clean, holds⟩ := first store clean
  rcases ran : run store with ⟨answer | _, later⟩
  · rw [ran] at same later_clean holds
    rw [bind_of_finished ran, bind_of_finished same.symm]
    exact second answer (holds answer rfl) later later_clean
  · rw [ran] at same later_clean
    rw [bind_of_exhausted ran, bind_of_exhausted same.symm]
    exact ⟨rfl, later_clean, nofun⟩

theorem exhausted : Run.Agrees (Run.exhausted : Run α) Run.exhausted Holds :=
  fun _ clean => ⟨rfl, clean, nofun⟩

/-! ## Steps -/

theorem fresh : Run.fresh.Agrees Run.fresh fun _ => True :=
  fun _ clean => ⟨rfl, clean.fresh, fun _ _ => trivial⟩

theorem enclose (outer : ScopeId) :
    (Run.enclose outer).Agrees (Run.enclose outer) fun _ => True :=
  fun _ clean => ⟨rfl, clean.enclose (some outer), fun _ _ => trivial⟩

theorem bindName (scope : ScopeId) (name : String) {value : Value} (plain : value.IsPlain) :
    (Run.bindName scope name value).Agrees (Run.bindName scope name value) fun _ => True :=
  fun _ clean => ⟨rfl, clean.bind scope name plain, fun _ _ => trivial⟩

theorem lookup (name : String) (scope : ScopeId) :
    (Run.lookup name scope).Agrees (Run.lookup name scope)
      fun found => ∀ value, found = some value → value.IsPlain := by
  intro store clean
  refine ⟨rfl, clean, ?_⟩
  rintro _ ⟨⟩ value found_eq
  exact clean.isPlain_of_lookup found_eq

theorem printLines (lines : List String) :
    (Run.printLines lines).Agrees (Run.printLines lines) fun _ => True :=
  fun _ clean => ⟨rfl, clean.print lines, fun _ _ => trivial⟩

end Run.Agrees

namespace Evaluation

open Run

theorem agrees_fail (mistake : Mistake) : (fail mistake).Agrees (fail mistake) IsResult :=
  Agrees.fresh.bind fun _ _ => .pure .error

/-- What is made with a serial number of its own. -/
theorem agrees_made {make : Nat → Value} (answer : ∀ serial, (make serial).IsAnswer) :
    Agrees (Run.fresh >>= fun serial => pure (make serial))
      (Run.fresh >>= fun serial => pure (make serial)) IsAnswer :=
  Agrees.fresh.bind fun serial _ => .pure (answer serial)

theorem agrees_identifier (name : String) (scope : ScopeId) :
    (identifier name scope).Agrees (identifier name scope) IsAnswer := by
  refine (Agrees.lookup name scope).bind fun found plain => ?_
  cases found with
  | some value => exact .pure (plain value rfl).isAnswer
  | none =>
      cases Builtin.ofName? name with
      | some builtin => exact .pure IsPlain.builtin.isAnswer
      | none => exact (agrees_fail _).imp fun _ result => .result result

/-- A signal is handed on, and so what follows is given plain values only. -/
theorem agrees_ifPlain {run other : Run Value} {next next_other : Value → Run Value}
    (first : run.Agrees other IsAnswer)
    (second : ∀ value, value.IsPlain → (next value).Agrees (next_other value) IsAnswer) :
    (ifPlain run next).Agrees (ifPlain other next_other) IsAnswer := by
  refine first.bind fun value answer => ?_
  cases signal : value.isSignal with
  | true => exact .pure answer
  | false => exact second value (answer.isPlain signal)

/-- Two ways to evaluate do the same on clean stores and finish with answers. -/
def AgreesEverywhere (nested other : Evaluator) : Prop :=
  ∀ expr scope, (nested expr scope).Agrees (other expr scope) IsAnswer

/-- Two sets of operations do the same with plain values. -/
structure Operations.AgreeOnPlain (operations other : Operations) : Prop where
  applyPrefix : ∀ operator operand, operand.IsPlain →
    operations.applyPrefix operator operand = other.applyPrefix operator operand
  applyInfix : ∀ operator left right, left.IsPlain → right.IsPlain →
    operations.applyInfix operator left right = other.applyInfix operator left right
  select : ∀ container position, container.IsPlain → position.IsPlain →
    operations.select container position = other.select container position
  call : ∀ inner callee arguments, callee.IsPlain → (∀ value ∈ arguments, value.IsPlain) →
    operations.call inner callee arguments = other.call inner callee arguments

variable {nested other : Evaluator} (agrees : AgreesEverywhere nested other)
include agrees

theorem agrees_collect (scope : ScopeId) {next next_other : List Value → Run Value}
    (later : ∀ values : List Value, (∀ value ∈ values, value.IsPlain) →
      (next values).Agrees (next_other values) IsAnswer) (exprs : List Expr) :
    (collect nested scope next exprs).Agrees (collect other scope next_other exprs) IsAnswer := by
  induction exprs generalizing next next_other with
  | nil => exact later [] (List.forall_mem_nil _)
  | cons first rest ih =>
      refine agrees_ifPlain (agrees first scope) fun value plain => ih fun values plain_values => ?_
      exact later (value :: values) (List.forall_mem_cons.mpr ⟨plain, plain_values⟩)

theorem agrees_collectEntries (scope : ScopeId) (pairs : List (Expr × Expr))
    {entries : List (Entry Value)}
    (plain : ∀ entry ∈ entries, entry.key.IsPlain ∧ entry.value.IsPlain) :
    (collectEntries nested scope (fun entries => do
        let serial ← Run.fresh
        return .hash serial entries) entries pairs).Agrees
      (collectEntries other scope (fun entries => do
        let serial ← Run.fresh
        return .hash serial entries) entries pairs) IsAnswer := by
  induction pairs generalizing entries with
  | nil =>
      refine agrees_made fun serial => IsPlain.isAnswer ?_
      exact .hash (fun entry member => (plain entry member).1)
        (fun entry member => (plain entry member).2)
  | cons first rest ih =>
      obtain ⟨key, value⟩ := first
      refine agrees_ifPlain (agrees key scope) fun key plain_key => ?_
      cases key.slot? with
      | none => exact (agrees_fail _).imp fun _ result => .result result
      | some slot =>
          refine agrees_ifPlain (agrees value scope) fun value plain_value => ih ?_
          exact Dictionary.forall_mem_insert plain ⟨plain_key, plain_value⟩

/-- The value of a statement, if it has one, is an answer. -/
theorem agrees_statement (scope : ScopeId) (text : Statement) :
    (statement nested scope text).Agrees (statement other scope text)
      fun found => ∀ value, found = some value → value.IsAnswer := by
  cases text with
  | expression token value =>
      refine (agrees value scope).bind fun value answer => .pure ?_
      rintro _ ⟨⟩
      exact answer
  | returning token value =>
      refine (agrees value scope).bind fun value answer => ?_
      cases signal : value.isSignal with
      | true =>
          refine .pure ?_
          rintro _ ⟨⟩
          exact answer
      | false =>
          refine Agrees.fresh.bind fun serial _ => .pure ?_
          rintro _ ⟨⟩
          exact .returned (answer.isPlain signal)
  | binding token name value =>
      refine (agrees value scope).bind fun value answer => ?_
      cases signal : value.isSignal with
      | true =>
          refine .pure ?_
          rintro _ ⟨⟩
          exact answer
      | false =>
          exact (Agrees.bindName scope name.literal (answer.isPlain signal)).bind fun _ _ =>
            .pure nofun

theorem agrees_statements (scope : ScopeId) (texts : List Statement) {last : Option Value}
    (last_answer : ∀ value, last = some value → value.IsAnswer) :
    (statements nested scope last texts).Agrees (statements other scope last texts)
      fun found => ∀ value, found = some value → value.IsAnswer := by
  induction texts generalizing last with
  | nil => exact .pure last_answer
  | cons first rest ih =>
      refine (agrees_statement agrees scope first).bind fun found answer => ?_
      cases signal : found.any Value.isSignal with
      | true =>
          rw [if_pos rfl]
          exact .pure answer
      | false => exact ih answer

theorem agrees_block (scope : ScopeId) (body : Block) :
    (block nested scope body).Agrees (block other scope body) IsAnswer := by
  have no_value : ∀ value : Value, none = some value → value.IsAnswer := nofun
  refine (agrees_statements agrees scope body.statements no_value).bind fun found answer => .pure ?_
  cases found with
  | none => exact IsPlain.null.isAnswer
  | some value => exact answer value rfl

theorem agrees_program (scope : ScopeId) (text : Program) :
    (program nested scope text).Agrees (program other scope text)
      fun found => ∀ value, found = some value → value.IsResult := by
  have no_value : ∀ value : Value, none = some value → value.IsAnswer := nofun
  refine (agrees_statements agrees scope text.statements no_value).bind fun found answer => .pure ?_
  intro value found_eq
  obtain ⟨inside, inside_eq, rfl⟩ := Option.map_eq_some_iff.mp found_eq
  exact (answer inside inside_eq).isResult_unwrap

omit agrees in
theorem agrees_bindAll (scope : ScopeId) (names : List String) {values : List Value}
    (plain : ∀ value ∈ values, value.IsPlain) :
    (bindAll scope names values).Agrees (bindAll scope names values) fun _ => True := by
  induction names generalizing values with
  | nil => exact .pure trivial
  | cons name names ih =>
      cases values with
      | nil => exact .pure trivial
      | cons value values =>
          rw [List.forall_mem_cons] at plain
          exact (Agrees.bindName scope name plain.1).bind fun _ _ => ih plain.2

/-- A call of a plain value with plain arguments comes to a plain value or a mistake. -/
theorem agrees_call {callee : Value} {arguments : List Value} (plain_callee : callee.IsPlain)
    (plain_arguments : ∀ argument ∈ arguments, argument.IsPlain) :
    (call nested callee arguments).Agrees (call other callee arguments) IsResult := by
  cases plain_callee with
  | function =>
      refine (Agrees.enclose _).bind fun scope _ => ?_
      refine (agrees_bindAll scope _ plain_arguments).bind fun _ _ => ?_
      exact (agrees_block agrees scope _).bind fun value answer => .pure answer.isResult_unwrap
  | builtin =>
      refine Agrees.fresh.bind fun serial _ => (Agrees.printLines _).bind fun _ _ => .pure ?_
      exact Builtin.isResult_result _ _ plain_arguments
  | _ => exact agrees_fail _

theorem agrees_choose (scope : ScopeId) (condition : Value) (consequence : Block)
    (alternative : Option Block) :
    (choose nested scope condition consequence alternative).Agrees
      (choose other scope condition consequence alternative) IsAnswer := by
  unfold choose
  split
  · exact agrees_block agrees scope consequence
  · cases alternative with
    | some alternative => exact agrees_block agrees scope alternative
    | none => exact .pure IsPlain.null.isAnswer

/-- One level of evaluation hands nothing but plain values to the operations. -/
theorem agrees_expression {operations : Operations} (same : operations.AgreeOnPlain .standard)
    {inner inner_other : Evaluator} (agrees_inner : AgreesEverywhere inner inner_other) :
    AgreesEverywhere (expression operations nested inner)
      (expression .standard other inner_other) := by
  intro expr scope
  cases expr with
  | identifier token => exact agrees_identifier token.literal scope
  | integer token value => exact agrees_made fun _ => IsPlain.integer.isAnswer
  | boolean token => exact .pure IsPlain.boolean.isAnswer
  | string token => exact agrees_made fun _ => IsPlain.string.isAnswer
  | array token elements =>
      exact agrees_collect agrees scope
        (fun values plain => agrees_made fun _ => (IsPlain.array plain).isAnswer) elements
  | hash token pairs => exact agrees_collectEntries agrees scope pairs (List.forall_mem_nil _)
  | prefixed operator operand =>
      refine agrees_ifPlain (agrees operand scope) fun value plain => ?_
      rw [same.applyPrefix operator.literal value plain]
      exact agrees_made fun serial => .result (Operation.isResult_applyPrefix serial _ _)
  | infixed operator left right =>
      refine agrees_ifPlain (agrees left scope) fun left plain_left => ?_
      refine agrees_ifPlain (agrees right scope) fun right plain_right => ?_
      rw [same.applyInfix operator.literal left right plain_left plain_right]
      exact agrees_made fun serial => .result (Operation.isResult_applyInfix serial _ _ _)
  | conditional token condition consequence alternative =>
      refine agrees_ifPlain (agrees condition scope) fun value _ => ?_
      exact agrees_choose agrees scope value consequence alternative
  | function token parameters body => exact agrees_made fun _ => IsPlain.function.isAnswer
  | call token callee arguments =>
      refine agrees_ifPlain (agrees callee scope) fun callee plain_callee => ?_
      refine agrees_collect agrees scope (fun values plain_values => ?_) arguments
      rw [same.call inner callee values plain_callee plain_values]
      exact (agrees_call agrees_inner plain_callee plain_values).imp fun _ result => .result result
  | index token container position =>
      refine agrees_ifPlain (agrees container scope) fun container plain_container => ?_
      refine agrees_ifPlain (agrees position scope) fun position plain_position => ?_
      rw [same.select container position plain_container plain_position]
      exact agrees_made fun serial => .result (Operation.isResult_select serial plain_container _)

omit agrees in
theorem agrees_evaluateWith {operations : Operations} (same : operations.AgreeOnPlain .standard)
    (depth : Nat) : AgreesEverywhere (evaluateWith operations depth) (evaluate depth) := by
  induction depth using Nat.strongRecOn with
  | ind depth ih =>
      intro expr scope
      cases depth with
      | zero =>
          rw [evaluateWith_zero, evaluate_zero]
          exact .exhausted
      | succ depth =>
          have less : depth + 1 - callWeight < depth + 1 :=
            Nat.sub_lt (Nat.succ_pos depth) (by decide)
          rw [evaluateWith_succ, evaluate_succ]
          exact agrees_expression (ih depth (Nat.lt_succ_self depth)) same (ih _ less) expr scope

omit agrees in
/-- Started on a clean store, every construct leaves a clean one.  Expressions and blocks come to
plain values, mistakes, or plain values on their way out, programs and calls of plain values to no
signal but a mistake.  All of them do the same for any operations that agree with those of the
language on plain values, so that no operation is ever given anything else. -/
theorem agrees_of_agreeOnPlain {operations : Operations} (same : operations.AgreeOnPlain .standard)
    (depth : Nat) :
    (∀ expr scope,
      (evaluateWith operations depth expr scope).Agrees (evaluate depth expr scope) IsAnswer) ∧
    (∀ scope body,
      (block (evaluateWith operations depth) scope body).Agrees (block (evaluate depth) scope body)
        IsAnswer) ∧
    (∀ scope text,
      (statement (evaluateWith operations depth) scope text).Agrees
        (statement (evaluate depth) scope text)
        fun found => ∀ value, found = some value → value.IsAnswer) ∧
    (∀ scope text,
      (program (evaluateWith operations depth) scope text).Agrees
        (program (evaluate depth) scope text)
        fun found => ∀ value, found = some value → value.IsResult) ∧
    ∀ callee arguments, callee.IsPlain → (∀ argument ∈ arguments, argument.IsPlain) →
      (call (evaluateWith operations depth) callee arguments).Agrees
        (call (evaluate depth) callee arguments) IsResult := by
  have everywhere := agrees_evaluateWith same depth
  refine ⟨everywhere, agrees_block everywhere, agrees_statement everywhere,
    agrees_program everywhere, ?_⟩
  intro callee arguments plain_callee plain_arguments
  exact agrees_call everywhere plain_callee plain_arguments

omit agrees in
/-- Leading operators that stop at signals make no difference to `!-true` and `len(true)`. -/
theorem agrees_of_stopping :
    let stopping : Operations := { Operations.standard with
      applyPrefix := fun operator operand =>
        if operand.isSignal then Run.exhausted
        else Operations.standard.applyPrefix operator operand }
    let negated : Expr := .prefixed ⟨.minus, "-", 1⟩ (.boolean ⟨.trueWord, "true", 2⟩)
    let denied : Expr := .prefixed ⟨.bang, "!", 0⟩ negated
    stopping.AgreeOnPlain .standard ∧ Store.empty.IsClean ∧
      Settled IsAnswer (evaluateWith stopping 3 denied 0 .empty) (evaluate 3 denied 0 .empty) ∧
      Settled IsResult (call (evaluateWith stopping 3) (.builtin .len) [.boolean true] .empty)
        (call (evaluate 3) (.builtin .len) [.boolean true] .empty) := by
  intro stopping negated denied
  have same : stopping.AgreeOnPlain .standard := by
    refine ⟨fun operator operand plain => ?_, fun _ _ _ _ _ => rfl, fun _ _ _ _ => rfl,
      fun _ _ _ _ _ => rfl⟩
    exact if_neg (Bool.eq_false_iff.mp plain.isSignal_eq_false)
  have agrees := agrees_of_agreeOnPlain same 3
  refine ⟨same, Store.isClean_empty, agrees.1 denied 0 .empty Store.isClean_empty,
    agrees.2.2.2.2 _ _ .builtin ?_ .empty Store.isClean_empty⟩
  exact List.forall_mem_singleton.mpr .boolean

end Evaluation
end MarmosetLang
