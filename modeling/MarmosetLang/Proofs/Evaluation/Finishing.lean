import MarmosetLang.Proofs.Evaluation.Preservation
import MarmosetLang.Proofs.Tree.Levels

/-!
# Programs without functions

Only the call of a function can send evaluation into an expression that is not part of the one at
hand.  Where there is no function to be called, evaluation goes down the tree and no deeper, and so
it comes to an end.  That there is none is seen from what evaluation preserves: where no function
literal stands in the program and no function can be seen from its scope, none is ever made.
-/

namespace MarmosetLang

/-- A value is no function of the program.  Builtin functions do not count. -/
def Value.IsNoFunction : Value → Prop
  | function _ _ _ _ => False
  | _ => True

/-- An expression is no function literal. -/
def Expr.IsNoFunction : Expr → Prop
  | function _ _ _ => False
  | _ => True

/-! ## Runs that finish -/

/-- From every store a run comes to its end with an answer. -/
def Run.Finishes {α : Type} (run : Run α) : Prop :=
  ∀ store, ∃ answer later, run store = (.finished answer, later)

namespace Run.Finishes

variable {α β : Type} {run : Run α}

protected theorem pure (answer : α) : Run.Finishes (pure answer) :=
  fun store => ⟨answer, store, rfl⟩

protected theorem bind {next : α → Run β} (first : run.Finishes)
    (second : ∀ answer, (next answer).Finishes) : (run >>= next).Finishes := by
  intro store
  obtain ⟨answer, middle, ran⟩ := first store
  rw [bind_of_finished ran]
  exact second answer middle

theorem fresh : Run.fresh.Finishes :=
  fun _ => ⟨_, _, rfl⟩

theorem bindName (scope : ScopeId) (name : String) (value : Value) :
    (Run.bindName scope name value).Finishes :=
  fun _ => ⟨_, _, rfl⟩

theorem lookup (name : String) (scope : ScopeId) : (Run.lookup name scope).Finishes :=
  fun _ => ⟨_, _, rfl⟩

theorem printLines (lines : List String) : (Run.printLines lines).Finishes :=
  fun _ => ⟨_, _, rfl⟩

end Run.Finishes

namespace Evaluation

open Run Value

/-! ## Calls of builtin functions -/

/-- A way to call that calls builtin functions as the language does, and makes a mistake of calling
anything else, functions of the program aside. -/
structure CallsBuiltins (way : Evaluator → Value → List Value → Run Value) : Prop where
  builtin : ∀ inner which arguments,
    way inner (.builtin which) arguments = call inner (.builtin which) arguments
  other : ∀ inner callee arguments, callee.tag ≠ .builtin → callee.tag ≠ .function →
    way inner callee arguments = fail (.notCallable callee.tag)

/-- Call a builtin function, and make a mistake of calling anything else. -/
def callBuiltin (inner : Evaluator) (callee : Value) (arguments : List Value) : Run Value :=
  match callee with
  | .builtin which => call inner (.builtin which) arguments
  | callee => fail (.notCallable callee.tag)

theorem callsBuiltins_callBuiltin : CallsBuiltins callBuiltin where
  builtin _ _ _ := rfl
  other _ callee _ not_builtin _ := by
    cases callee with
    | builtin => exact absurd rfl not_builtin
    | _ => rfl

/-! ## Going down the tree -/

theorem finishes_made (make : Nat → Value) :
    Finishes (Run.fresh >>= fun serial => pure (make serial)) :=
  Finishes.fresh.bind fun serial => .pure (make serial)

theorem finishes_identifier (name : String) (scope : ScopeId) :
    (identifier name scope).Finishes := by
  refine (Finishes.lookup name scope).bind fun found => ?_
  cases found with
  | some value => exact .pure value
  | none =>
      cases Builtin.ofName? name with
      | some builtin => exact .pure _
      | none => exact finishes_made _

theorem finishes_ifPlain {run : Run Value} {next : Value → Run Value} (first : run.Finishes)
    (second : ∀ value, (next value).Finishes) : (ifPlain run next).Finishes := by
  refine first.bind fun value => ?_
  cases value.isSignal with
  | true => exact .pure value
  | false => exact second value

theorem finishes_callBuiltin (inner : Evaluator) (callee : Value) (arguments : List Value) :
    (callBuiltin inner callee arguments).Finishes := by
  cases callee with
  | builtin which =>
      exact Finishes.fresh.bind fun _ => (Finishes.printLines _).bind fun _ => .pure _
  | _ => exact finishes_made _

/-- A way to evaluate finishes with all expressions of at most so many levels. -/
def FinishesTo (levels : Nat) (nested : Evaluator) : Prop :=
  ∀ expr scope, expr.levels ≤ levels → (nested expr scope).Finishes

section

variable {levels : Nat} {nested : Evaluator} (finishes : FinishesTo levels nested)
  (scope : ScopeId)
include finishes

theorem finishes_collect {exprs : List Expr} (within : Expr.levelsEach exprs ≤ levels)
    {next : List Value → Run Value} (later : ∀ values, (next values).Finishes) :
    (collect nested scope next exprs).Finishes := by
  induction exprs generalizing next with
  | nil => exact later []
  | cons first rest ih =>
      obtain ⟨first_within, rest_within⟩ := Nat.max_le.mp within
      exact finishes_ifPlain (finishes first scope first_within) fun value =>
        ih rest_within fun values => later (value :: values)

theorem finishes_collectEntries {pairs : List (Expr × Expr)}
    (within : Expr.levelsPairs pairs ≤ levels) {next : List (Entry Value) → Run Value}
    (later : ∀ entries, (next entries).Finishes) (entries : List (Entry Value)) :
    (collectEntries nested scope next entries pairs).Finishes := by
  induction pairs generalizing entries with
  | nil => exact later entries
  | cons first rest ih =>
      obtain ⟨key, value⟩ := first
      obtain ⟨pair_within, rest_within⟩ := Nat.max_le.mp within
      obtain ⟨key_within, value_within⟩ := Nat.max_le.mp pair_within
      refine finishes_ifPlain (finishes key scope key_within) fun key => ?_
      cases key.slot? with
      | none => exact finishes_made _
      | some slot =>
          exact finishes_ifPlain (finishes value scope value_within) fun value =>
            ih rest_within _

theorem finishes_statement {text : Statement} (within : text.levels ≤ levels) :
    (statement nested scope text).Finishes := by
  cases text with
  | expression token value => exact (finishes value scope within).bind fun value => .pure _
  | returning token value =>
      refine (finishes value scope within).bind fun value => ?_
      cases value.isSignal with
      | true => exact .pure _
      | false => exact Finishes.fresh.bind fun serial => .pure _
  | binding token name value =>
      refine (finishes value scope within).bind fun value => ?_
      cases value.isSignal with
      | true => exact .pure _
      | false => exact (Finishes.bindName scope _ value).bind fun _ => .pure _

theorem finishes_statements {texts : List Statement}
    (within : Statement.levelsAll texts ≤ levels) (last : Option Value) :
    (statements nested scope last texts).Finishes := by
  induction texts generalizing last with
  | nil => exact .pure last
  | cons first rest ih =>
      obtain ⟨first_within, rest_within⟩ := Nat.max_le.mp within
      refine (finishes_statement finishes scope first_within).bind fun found => ?_
      cases found.any Value.isSignal with
      | true => exact .pure found
      | false => exact ih rest_within found

theorem finishes_block {body : Block} (within : body.levels ≤ levels) :
    (block nested scope body).Finishes := by
  cases body with
  | mk token texts =>
      exact (finishes_statements finishes scope within none).bind fun found => .pure _

theorem finishes_program {text : Program} (within : text.levels ≤ levels) :
    (program nested scope text).Finishes :=
  (finishes_statements finishes scope within none).bind fun _ => .pure _

theorem finishes_choose {token : Token} {asked : Expr} {consequence : Block}
    {alternative : Option Block}
    (within : (Expr.conditional token asked consequence alternative).levels ≤ levels + 1)
    (condition : Value) :
    (choose nested scope condition consequence alternative).Finishes := by
  cases alternative with
  | none =>
      obtain ⟨-, consequence_within⟩ := Nat.max_le.mp (Nat.le_of_succ_le_succ within)
      rw [choose]
      split
      · exact finishes_block finishes scope consequence_within
      · exact .pure _
  | some alternative =>
      obtain ⟨-, blocks_within⟩ := Nat.max_le.mp (Nat.le_of_succ_le_succ within)
      obtain ⟨consequence_within, alternative_within⟩ := Nat.max_le.mp blocks_within
      rw [choose]
      split
      · exact finishes_block finishes scope consequence_within
      · exact finishes_block finishes scope alternative_within

/-- One more level, if no function is called. -/
theorem finishes_expression (inner : Evaluator) :
    FinishesTo (levels + 1)
      (expression { Operations.standard with call := callBuiltin } nested inner) := by
  intro expr scope within
  cases expr with
  | identifier token => exact finishes_identifier token.literal scope
  | integer => exact finishes_made _
  | boolean => exact .pure _
  | string => exact finishes_made _
  | array token elements =>
      exact finishes_collect finishes scope (Nat.le_of_succ_le_succ within) fun _ =>
        finishes_made _
  | hash token pairs =>
      exact finishes_collectEntries finishes scope (Nat.le_of_succ_le_succ within)
        (fun _ => finishes_made _) []
  | prefixed operator operand =>
      exact finishes_ifPlain (finishes operand scope (Nat.le_of_succ_le_succ within)) fun _ =>
        finishes_made _
  | infixed operator left right =>
      obtain ⟨left_within, right_within⟩ := Nat.max_le.mp (Nat.le_of_succ_le_succ within)
      exact finishes_ifPlain (finishes left scope left_within) fun _ =>
        finishes_ifPlain (finishes right scope right_within) fun _ => finishes_made _
  | conditional token condition consequence alternative =>
      refine finishes_ifPlain (finishes condition scope ?_) fun condition => ?_
      · cases alternative <;> exact (Nat.max_le.mp (Nat.le_of_succ_le_succ within)).1
      · exact finishes_choose finishes scope within condition
  | function => exact finishes_made _
  | call token callee arguments =>
      obtain ⟨callee_within, arguments_within⟩ := Nat.max_le.mp (Nat.le_of_succ_le_succ within)
      exact finishes_ifPlain (finishes callee scope callee_within) fun callee =>
        finishes_collect finishes scope arguments_within fun arguments =>
          finishes_callBuiltin inner callee arguments
  | index token container position =>
      obtain ⟨container_within, position_within⟩ :=
        Nat.max_le.mp (Nat.le_of_succ_le_succ within)
      exact finishes_ifPlain (finishes container scope container_within) fun _ =>
        finishes_ifPlain (finishes position scope position_within) fun _ => finishes_made _

end

/-- Where nothing but builtin functions can be called, as many levels as the tree has are enough. -/
theorem finishes_evaluateWith (levels : Nat) :
    FinishesTo levels (evaluateWith { Operations.standard with call := callBuiltin } levels) := by
  induction levels with
  | zero => exact fun expr scope within => absurd expr.levels_pos (Nat.not_lt_of_le within)
  | succ levels ih =>
      intro expr scope within
      rw [evaluateWith_succ]
      exact finishes_expression ih _ expr scope within

/-! ## No function is ever called -/

theorem lawful_isNoFunction :
    Lawful Expr.IsNoFunction (fun _ => True) Value.IsNoFunction where
  wrapped _ _ := trivial
  boolean _ := trivial
  null := trivial
  string _ _ := trivial
  array _ _ := trivial
  builtin _ := trivial
  returned _ _ := trivial
  error _ _ := trivial
  integer _ _ := trivial
  hash_nil _ := trivial
  hash_insert _ _ _ _ := trivial
  function literal _ _ _ := literal.elim
  called function := function.elim

variable {Code : Expr → Prop} {region : ScopeId → Prop} {Holds : Value → Prop}

/-- Where no value is a function, it does not matter how functions are called. -/
theorem follows_of_callsBuiltins (lawful : Lawful Code region Holds)
    (none_holds : ∀ value, Holds value → value.IsNoFunction)
    (integer : ∀ serial number, Holds (.integer serial number))
    {way : Evaluator → Value → List Value → Run Value} (calls : CallsBuiltins way) (depth : Nat) :
    Follows Code region Holds (evaluateWith { Operations.standard with call := way } depth)
      (evaluate depth) := by
  have stopped : Follows Code region Holds (fun _ _ => Run.exhausted) fun _ _ => Run.exhausted :=
    fun _ _ _ _ => .exhausted
  induction depth with
  | zero =>
      intro expr scope _ _
      rw [evaluateWith_zero, evaluate_zero]
      exact .exhausted
  | succ depth ih =>
      intro expr scope code inside
      rw [evaluateWith_succ, evaluate_succ]
      -- Apart from calls, it makes no difference what functions would do.
      have others := follows_expression lawful ih (lawful.preserves_standard integer) stopped
        expr scope code inside
      cases code with
      | call _ called given =>
          refine abides_ifPlain (ih _ scope called inside) fun callee every => ?_
          refine abides_collect ih inside (fun arguments each => ?_) given
          change (way _ callee arguments).Abides _ (call _ callee arguments) _
          cases callee with
          | function => exact (none_holds _ every.here).elim
          | builtin which =>
              rw [calls.builtin]
              exact abides_call lawful stopped every each fun argument _ _ serial =>
                Builtin.every_length lawful.toClosed integer serial argument
          | _ =>
              rw [calls.other _ _ _ (by simp [tag]) (by simp [tag])]
              exact abides_fail lawful _
      | _ => exact others

/-- A program without function literals, carried out where no function can be seen, comes to its end
within as many levels as its tree has.  No function can be seen afterwards, and no expression comes
to one on the way.  All that is ever called is builtin functions, unless calling makes a mistake:
the run is the same whatever calling a function would do. -/
theorem finishes_without_functions {text : Program} (code : text.Every Expr.IsNoFunction)
    {store : Store} {home : ScopeId} (holds : store.HoldsFrom Value.IsNoFunction home) {depth : Nat}
    (within : text.levels ≤ depth) :
    (∃ value later, program (evaluate depth) home text store = (.finished value, later)) ∧
    Preserved Value.IsNoFunction store home (program (evaluate depth) home text store) ∧
    (∀ inspect : Value → Run Value,
      (∀ value, value.Every Value.IsNoFunction → inspect value = pure value) →
        program (inspected inspect .standard depth) home text store =
          program (evaluate depth) home text store) ∧
    ∀ way, CallsBuiltins way →
      program (evaluateWith { Operations.standard with call := way } depth) home text store =
        program (evaluate depth) home text store := by
  have preserves (region : ScopeId → Prop) :=
    (lawful_isNoFunction.confine region).preserves_standard fun _ _ => ⟨trivial, trivial⟩
  obtain ⟨preserved, inspection⟩ :=
    preserved_program lawful_isNoFunction preserves holds code depth
  have same (way : Evaluator → Value → List Value → Run Value) (calls : CallsBuiltins way) :
      program (evaluateWith { Operations.standard with call := way } depth) home text store =
        program (evaluate depth) home text store := by
    have lawful := lawful_isNoFunction.confine fun scope =>
      store.Sees home scope ∨ store.scopes.size ≤ scope
    have follows := follows_of_callsBuiltins lawful (fun _ => And.left)
      (fun _ _ => ⟨trivial, trivial⟩) calls depth
    exact (abides_program lawful follows (.inl .here) code store holds.confined).1
  refine ⟨?_, preserved, inspection, same⟩
  rw [← same callBuiltin callsBuiltins_callBuiltin]
  exact finishes_program (finishes_evaluateWith depth) home within store

/-- The program `let ys = push(xs, len("ab")); ys(true)` where `xs` is an array: three levels are
enough for it. -/
theorem finishes_without_functions_sample :
    let text : Program := ⟨[
      .binding ⟨.letWord, "let", 0⟩ ⟨.identifier, "ys", 4⟩
        (.call ⟨.openParen, "(", 13⟩ (.identifier ⟨.identifier, "push", 9⟩)
          [.identifier ⟨.identifier, "xs", 14⟩,
            .call ⟨.openParen, "(", 21⟩ (.identifier ⟨.identifier, "len", 18⟩)
              [.string ⟨.string, "ab", 22⟩]]),
      .expression ⟨.identifier, "ys", 29⟩
        (.call ⟨.openParen, "(", 31⟩ (.identifier ⟨.identifier, "ys", 29⟩)
          [.boolean ⟨.trueWord, "true", 32⟩])]⟩
    let store : Store := (Store.empty.enclose none).2.bind 0 "xs" (.array 0 [.null])
    text.Every Expr.IsNoFunction ∧ store.HoldsFrom Value.IsNoFunction 0 ∧ text.levels ≤ 3 ∧
      (∃ value later, program (evaluate 3) 0 text store = (.finished value, later)) ∧
      Preserved Value.IsNoFunction store 0 (program (evaluate 3) 0 text store) ∧
      CallsBuiltins callBuiltin ∧
      program (evaluateWith { Operations.standard with call := callBuiltin } 3) 0 text store =
        program (evaluate 3) 0 text store := by
  intro text store
  have code : text.Every Expr.IsNoFunction := by
    refine List.forall_mem_cons.mpr ⟨.binding ?_, List.forall_mem_singleton.mpr (.expression ?_)⟩
    · have measured : (Expr.call ⟨.openParen, "(", 21⟩ (.identifier ⟨.identifier, "len", 18⟩)
          [.string ⟨.string, "ab", 22⟩]).Every Expr.IsNoFunction :=
        .call trivial (.identifier trivial) (List.forall_mem_singleton.mpr (.string trivial))
      exact .call trivial (.identifier trivial) (List.forall_mem_cons.mpr
        ⟨.identifier trivial, List.forall_mem_singleton.mpr measured⟩)
    · exact .call trivial (.identifier trivial) (List.forall_mem_singleton.mpr (.boolean trivial))
  have holds : store.HoldsFrom Value.IsNoFunction 0 := by
    refine Store.holdsFrom_of_forall ?_ 0
    have row : (Value.array 0 [.null]).Every Value.IsNoFunction :=
      .array trivial (List.forall_mem_singleton.mpr (.null trivial))
    simpa [store, Store.bind, Store.enclose, Store.empty, Scope.bind, Scope.put] using row
  have within : text.levels ≤ 3 := by decide
  obtain ⟨finished, preserved, -, same⟩ := finishes_without_functions code holds within
  exact ⟨code, holds, within, finished, preserved, callsBuiltins_callBuiltin,
    same callBuiltin callsBuiltins_callBuiltin⟩

end Evaluation
end MarmosetLang
