import MarmosetLang.Builtin.Apply
import MarmosetLang.Evaluation.Run
import MarmosetLang.Operation

/-!
# Evaluation

Expressions are evaluated from left to right in a scope.  A signal, which is a mistake or a value on
its way out of a function, travels straight up: whoever receives one hands it on before doing any
work of its own.

The rule for each construct is written over two arbitrary ways to evaluate: `nested` for the
expressions in it, and `inner` for those in the bodies of the functions that it calls.  Both may go
less deep.  What is done with the values of operands is left to `Operations`, so that receiving
values and working with them are kept apart.  `evaluate` puts the rules together by recursion on the
depth.
-/

namespace MarmosetLang

/-- A way to evaluate an expression in a scope. -/
abbrev Evaluator := Expr → ScopeId → Run Value

namespace Evaluation

/-- Do one run and go on with its value if that is plain.  A signal ends the matter. -/
@[inline]
def ifPlain (run : Run Value) (next : Value → Run Value) : Run Value := do
  let value ← run
  if value.isSignal then
    return value
  else
    next value

/-- Make a mistake. -/
def fail (mistake : Mistake) : Run Value := do
  let serial ← Run.fresh
  return .error serial mistake

/-- Evaluate a name: a scope may bind it, or else a builtin function may have it. -/
def identifier (name : String) (scope : ScopeId) : Run Value := do
  match ← Run.lookup name scope with
  | some value => return value
  | none =>
      match Builtin.ofName? name with
      | some builtin => return .builtin builtin
      | none => fail (.unknownName name)

/-- Evaluate expressions from left to right and go on with their values.  A signal among them ends
the matter. -/
def collect (nested : Evaluator) (scope : ScopeId) (next : List Value → Run Value) :
    List Expr → Run Value
  | [] => next []
  | first :: rest =>
      ifPlain (nested first scope) fun value =>
        collect nested scope (fun values => next (value :: values)) rest

/-- Evaluate the pairs of a hash literal, each key before its value, and go on with the entries.  A
key that cannot be one is a mistake even before its value is looked at. -/
def collectEntries (nested : Evaluator) (scope : ScopeId)
    (next : List (Entry Value) → Run Value) (entries : List (Entry Value)) :
    List (Expr × Expr) → Run Value
  | [] => next entries
  | (key, value) :: rest =>
      ifPlain (nested key scope) fun key =>
        match key.slot? with
        | none => fail (.unusableKey key.tag)
        | some slot =>
            ifPlain (nested value scope) fun value =>
              collectEntries nested scope next (Dictionary.insert entries ⟨slot, key, value⟩) rest

/-- Carry out a statement.  A binding has no value. -/
def statement (nested : Evaluator) (scope : ScopeId) : Statement → Run (Option Value)
  | .expression _ value => do
      let value ← nested value scope
      return some value
  | .returning _ value => do
      let value ← nested value scope
      if value.isSignal then
        return some value
      else
        let serial ← Run.fresh
        return some (.returned serial value)
  | .binding _ name value => do
      let value ← nested value scope
      if value.isSignal then
        return some value
      else
        Run.bindName scope name.literal value
        return none

/-- Carry out statements up to the first signal, and give the value of the last one done. -/
def statements (nested : Evaluator) (scope : ScopeId) (last : Option Value) :
    List Statement → Run (Option Value)
  | [] => return last
  | first :: rest => do
      let value ← statement nested scope first
      if value.any Value.isSignal then
        return value
      else
        statements nested scope value rest

/-- Carry out the statements of a block.  Where the last one has no value, the block has null. -/
def block (nested : Evaluator) (scope : ScopeId) (body : Block) : Run Value := do
  let value ← statements nested scope none body.statements
  return value.getD .null

/-- Carry out the statements of a program.  A value that is returned there is its value. -/
def program (nested : Evaluator) (scope : ScopeId) (text : Program) : Run (Option Value) := do
  let value ← statements nested scope none text.statements
  return value.map Value.unwrap

/-- Bind parameters to arguments, first to first.  Parameters without an argument stay unbound, and
arguments without a parameter are forgotten. -/
def bindAll (scope : ScopeId) : List String → List Value → Run Unit
  | name :: names, value :: values => do
      Run.bindName scope name value
      bindAll scope names values
  | _, _ => return ()

/-- Call a value.  The body of a function is carried out in a new scope inside the one in which its
literal stood. -/
def call (inner : Evaluator) (callee : Value) (arguments : List Value) : Run Value := do
  match callee with
  | .function _ parameters body outer =>
      let scope ← Run.enclose outer
      bindAll scope parameters arguments
      let value ← block inner scope body
      return value.unwrap
  | .builtin builtin =>
      let serial ← Run.fresh
      Run.printLines (builtin.lines arguments)
      return builtin.result serial arguments
  | callee => fail (.notCallable callee.tag)

/-- What evaluation does with values once it has all of them. -/
structure Operations where
  /-- Apply an operator that stands before its operand. -/
  applyPrefix : String → Value → Run Value
  /-- Apply an operator that stands between its operands. -/
  applyInfix : String → Value → Value → Run Value
  /-- Select from a container. -/
  select : Value → Value → Run Value
  /-- Call a value, the bodies of functions being evaluated in a given way. -/
  call : Evaluator → Value → List Value → Run Value

/-- The operations of the language. -/
def Operations.standard : Operations where
  applyPrefix operator operand := do
    let serial ← Run.fresh
    return Operation.applyPrefix serial operator operand
  applyInfix operator left right := do
    let serial ← Run.fresh
    return Operation.applyInfix serial operator left right
  select container position := do
    let serial ← Run.fresh
    return Operation.select serial container position
  call := Evaluation.call

/-- Choose between two blocks.  A missing one has null. -/
def choose (nested : Evaluator) (scope : ScopeId) (condition : Value) (consequence : Block)
    (alternative : Option Block) : Run Value :=
  if condition.isTruthy then
    block nested scope consequence
  else
    match alternative with
    | some alternative => block nested scope alternative
    | none => return .null

/-- Evaluate an expression, with `nested` for the expressions in it and `inner` for the bodies of
the functions that it calls. -/
def expression (operations : Operations) (nested inner : Evaluator) : Evaluator
  | .identifier token, scope => identifier token.literal scope
  | .integer _ value, _ => do
      let serial ← Run.fresh
      return .integer serial value
  | .boolean token, _ => return .boolean (token.kind = .trueWord)
  | .string token, _ => do
      let serial ← Run.fresh
      return .string serial token.literal
  | .array _ elements, scope =>
      collect nested scope (fun values => do
        let serial ← Run.fresh
        return .array serial values) elements
  | .hash _ pairs, scope =>
      collectEntries nested scope (fun entries => do
        let serial ← Run.fresh
        return .hash serial entries) [] pairs
  | .prefixed operator operand, scope =>
      ifPlain (nested operand scope) (operations.applyPrefix operator.literal)
  | .infixed operator left right, scope =>
      ifPlain (nested left scope) fun left =>
        ifPlain (nested right scope) (operations.applyInfix operator.literal left)
  | .conditional _ condition consequence alternative, scope =>
      ifPlain (nested condition scope) fun condition =>
        choose nested scope condition consequence alternative
  | .function _ parameters body, scope => do
      let serial ← Run.fresh
      return .function serial (parameters.map Token.literal) body scope
  | .call _ callee arguments, scope =>
      ifPlain (nested callee scope) fun callee =>
        collect nested scope (operations.call inner callee) arguments
  | .index _ container position, scope =>
      ifPlain (nested container scope) fun container =>
        ifPlain (nested position scope) (operations.select container)

/-- The number of levels that a call takes up.  It stands for the share that a call has of the limit
on recursion: more than one level, so that runaway recursion ends before the values that it piles up
become too many. -/
def callWeight : Nat := 25

/-- Evaluate an expression with the given operations, going down at most the given number of
levels. -/
def evaluateWith (operations : Operations) (depth : Nat) (expr : Expr) (scope : ScopeId) :
    Run Value :=
  match depth with
  | 0 => Run.exhausted
  | depth + 1 =>
      expression operations (evaluateWith operations depth)
        (evaluateWith operations (depth + 1 - callWeight)) expr scope
termination_by depth
decreasing_by
  · exact Nat.lt_succ_self _
  · exact Nat.sub_lt (Nat.succ_pos _) (by decide)

theorem evaluateWith_zero (operations : Operations) (expr : Expr) (scope : ScopeId) :
    evaluateWith operations 0 expr scope = Run.exhausted := by
  rw [evaluateWith]

theorem evaluateWith_succ (operations : Operations) (depth : Nat) (expr : Expr)
    (scope : ScopeId) :
    evaluateWith operations (depth + 1) expr scope =
      expression operations (evaluateWith operations depth)
        (evaluateWith operations (depth + 1 - callWeight)) expr scope := by
  rw [evaluateWith]

/-- Evaluate an expression, going down at most the given number of levels. -/
def evaluate (depth : Nat) : Evaluator :=
  evaluateWith .standard depth

theorem evaluate_zero (expr : Expr) (scope : ScopeId) : evaluate 0 expr scope = Run.exhausted :=
  evaluateWith_zero .standard expr scope

theorem evaluate_succ (depth : Nat) (expr : Expr) (scope : ScopeId) :
    evaluate (depth + 1) expr scope =
      expression .standard (evaluate depth) (evaluate (depth + 1 - callWeight)) expr scope :=
  evaluateWith_succ .standard depth expr scope

/-- The number of levels that runs may go down.  It stands for the limit on recursion that a run is
given.  The language does not say where the limit falls, and nothing that is shown of all runs
depends on this number rather than another. -/
def maxDepth : Nat := 100000

/-- Carry out a program in a scope. -/
def run (scope : ScopeId) (text : Program) : Run (Option Value) :=
  program (evaluate maxDepth) scope text

/-- Call a value with arguments. -/
def apply (callee : Value) (arguments : List Value) : Run Value :=
  call (evaluate maxDepth) callee arguments

end Evaluation

end MarmosetLang
