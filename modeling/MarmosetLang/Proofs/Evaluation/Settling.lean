import MarmosetLang.Evaluation
import MarmosetLang.Proofs.Evaluation.Sparing

/-!
# Runs that settle

Whether a run comes to its end is a question of levels, but with enough of them it no longer matters
how many there are.  Instead of counting the levels that a program needs, one follows it construct
by construct: there is a rule for each of them, from what is known about the ends of the parts to
what is to be known about the end of the whole.  All values on the way are plain.
-/

namespace MarmosetLang

theorem Value.unwrap_of_plain {value : Value} (plain : value.isSignal = false) :
    value.unwrap = value := by
  cases value with
  | returned => exact Bool.noConfusion plain
  | _ => rfl

namespace Evaluation

/-! ## Settling -/

/-- Given enough levels, a run comes to its end, and how many more there are does not matter.  Its
answer and the store that it leaves are as described. -/
def Settles {α : Type} (run : Nat → Run α) (store : Store) (Ends : α → Store → Prop) : Prop :=
  ∃ answer later, Ends answer later ∧
    ∃ enough, ∀ depth, enough ≤ depth → run depth store = (.finished answer, later)

/-- An expression settles. -/
abbrev Evaluates (expr : Expr) (scope : ScopeId) : Store → (Value → Store → Prop) → Prop :=
  Settles fun depth => evaluate depth expr scope

/-- A call settles. -/
abbrev Calls (callee : Value) (arguments : List Value) :
    Store → (Value → Store → Prop) → Prop :=
  Settles fun depth => call (evaluate depth) callee arguments

section

variable {α β : Type} {run : Nat → Run α} {store later : Store} {Ends : α → Store → Prop}

theorem Settles.imp {Others : α → Store → Prop} (settles : Settles run store Ends)
    (implies : ∀ answer later, Ends answer later → Others answer later) :
    Settles run store Others := by
  obtain ⟨answer, later, ends, finishes⟩ := settles
  exact ⟨answer, later, implies answer later ends, finishes⟩

theorem settles_of_finished {answer : α}
    (finished : ∀ depth, run depth store = (.finished answer, later)) (ends : Ends answer later) :
    Settles run store Ends :=
  ⟨answer, later, ends, 0, fun depth _ => finished depth⟩

theorem settles_bind {next : Nat → α → Run β} {Ends : β → Store → Prop}
    (settles : Settles run store fun answer middle =>
      Settles (fun depth => next depth answer) middle Ends) :
    Settles (fun depth => run depth >>= next depth) store Ends := by
  obtain ⟨answer, middle, ⟨final, later, ends, more, last⟩, enough, first⟩ := settles
  refine ⟨final, later, ends, max enough more, fun depth le => ?_⟩
  obtain ⟨enough_le, more_le⟩ := Nat.max_le.mp le
  exact (Run.bind_of_finished (first depth enough_le)).trans (last depth more_le)

/-- A run that is given fewer levels, though only by a fixed number, settles as well. -/
theorem Settles.below (settles : Settles run store Ends) {less : Nat → Nat} {weight : Nat}
    (light : ∀ depth, depth ≤ less depth + weight) :
    Settles (fun depth => run (less depth)) store Ends := by
  obtain ⟨answer, later, ends, enough, finishes⟩ := settles
  refine ⟨answer, later, ends, enough + weight, fun depth le => ?_⟩
  exact finishes (less depth) (Nat.le_of_add_le_add_right (Nat.le_trans le (light depth)))

end

section

variable {scope : ScopeId} {store : Store} {Ends : Value → Store → Prop}

theorem settles_ifPlain {run : Nat → Run Value} {next : Nat → Value → Run Value}
    (settles : Settles run store fun value middle => value.isSignal = false ∧
      Settles (fun depth => next depth value) middle Ends) :
    Settles (fun depth => ifPlain (run depth) (next depth)) store Ends := by
  refine settles_bind (settles.imp fun value middle ⟨plain, rest⟩ => ?_)
  simpa only [plain, Bool.false_eq_true, if_false] using rest

/-- The rule of a construct, with one level for itself. -/
theorem evaluates_of_rule {expr : Expr}
    (settles : Settles (fun depth => expression .standard (evaluate depth)
      (evaluate (depth + 1 - callWeight)) expr scope) store Ends) :
    Evaluates expr scope store Ends := by
  obtain ⟨answer, later, ends, enough, finishes⟩ := settles
  refine ⟨answer, later, ends, enough + 1, fun depth le => ?_⟩
  obtain ⟨depth, rfl⟩ := Nat.exists_eq_add_one.mpr (Nat.lt_of_lt_of_le (Nat.succ_pos enough) le)
  exact (congrFun (evaluate_succ depth expr scope) store).trans
    (finishes depth (Nat.le_of_succ_le_succ le))

theorem evaluates_name {token : Token} {value : Value}
    (bound : store.lookup token.literal scope = some value) (ends : Ends value store) :
    Evaluates (.identifier token) scope store Ends := by
  refine evaluates_of_rule (settles_of_finished (fun depth => ?_) ends)
  refine (Run.bind_of_finished rfl).trans ?_
  rw [bound]
  rfl

theorem evaluates_builtin {token : Token} {builtin : Builtin}
    (named : token.literal = builtin.name) (unbound : store.lookup builtin.name scope = none)
    (ends : Ends (.builtin builtin) store) :
    Evaluates (.identifier token) scope store Ends := by
  refine evaluates_of_rule (settles_of_finished (fun depth => ?_) ends)
  refine (Run.bind_of_finished rfl).trans ?_
  rw [named, unbound]
  dsimp only
  rw [Builtin.ofName?_name]
  rfl

theorem evaluates_integer {token : Token} {value : Nat}
    (ends : Ends (.integer store.made value) store.fresh.2) :
    Evaluates (.integer token value) scope store Ends :=
  evaluates_of_rule (settles_of_finished (fun _ => rfl) ends)

theorem evaluates_function {token : Token} {parameters : List Token} {body : Block}
    (ends : Ends (.function store.made (parameters.map Token.literal) body scope) store.fresh.2) :
    Evaluates (.function token parameters body) scope store Ends :=
  evaluates_of_rule (settles_of_finished (fun _ => rfl) ends)

theorem evaluates_infixed {operator : Token} {left right : Expr}
    (settles : Evaluates left scope store fun before middle => before.isSignal = false ∧
      Evaluates right scope middle fun behind later => behind.isSignal = false ∧
        Ends (Operation.applyInfix later.made operator.literal before behind) later.fresh.2) :
    Evaluates (.infixed operator left right) scope store Ends := by
  refine evaluates_of_rule (settles_ifPlain (settles.imp ?_))
  rintro before middle ⟨plain, settles⟩
  refine ⟨plain, settles_ifPlain (settles.imp ?_)⟩
  rintro behind later ⟨plain, ends⟩
  exact ⟨plain, settles_of_finished (fun _ => rfl) ends⟩

theorem evaluates_conditional {token : Token} {condition : Expr} {consequence : Block}
    {alternative : Option Block}
    (settles : Evaluates condition scope store fun value middle => value.isSignal = false ∧
      Settles (fun depth => choose (evaluate depth) scope value consequence alternative) middle
        Ends) :
    Evaluates (.conditional token condition consequence alternative) scope store Ends :=
  evaluates_of_rule (settles_ifPlain settles)

theorem settles_collect_nil {next : Nat → List Value → Run Value}
    (settles : Settles (fun depth => next depth []) store Ends) :
    Settles (fun depth => collect (evaluate depth) scope (next depth) []) store Ends :=
  settles

theorem settles_collect_cons {next : Nat → List Value → Run Value} {first : Expr}
    {rest : List Expr}
    (settles : Evaluates first scope store fun value middle => value.isSignal = false ∧
      Settles (fun depth => collect (evaluate depth) scope
        (fun values => next depth (value :: values)) rest) middle Ends) :
    Settles (fun depth => collect (evaluate depth) scope (next depth) (first :: rest)) store
      Ends :=
  settles_ifPlain settles

theorem evaluates_array_nil {token : Token}
    (ends : Ends (.array store.made []) store.fresh.2) :
    Evaluates (.array token []) scope store Ends :=
  evaluates_of_rule (settles_of_finished (fun _ => rfl) ends)

theorem evaluates_call {token : Token} {callee : Expr} {arguments : List Expr}
    (settles : Evaluates callee scope store fun value middle => value.isSignal = false ∧
      Settles (fun depth => collect (evaluate depth) scope
        (call (evaluate (depth + 1 - callWeight)) value) arguments) middle Ends) :
    Evaluates (.call token callee arguments) scope store Ends :=
  evaluates_of_rule (settles_ifPlain settles)

/-- A call takes up a fixed number of levels besides those of the function. -/
theorem Settles.deepen {callee : Value} {arguments : List Value}
    (settles : Calls callee arguments store Ends) :
    Settles (fun depth => call (evaluate (depth + 1 - callWeight)) callee arguments) store Ends :=
  settles.below fun depth => (by omega : depth ≤ depth + 1 - callWeight + callWeight)

theorem calls_builtin {builtin : Builtin} {arguments : List Value}
    (silent : builtin.lines arguments = [])
    (ends : Ends (builtin.result store.made arguments) store.fresh.2) :
    Calls (.builtin builtin) arguments store Ends := by
  refine settles_of_finished (fun depth => ?_) ends
  refine (Run.bind_of_finished rfl).trans ((Run.bind_of_finished rfl).trans ?_)
  rw [silent]
  rfl

/-! ## Statements -/

variable {Closes : Option Value → Store → Prop}

theorem settles_statements_nil {last : Option Value} (closes : Closes last store) :
    Settles (fun depth => statements (evaluate depth) scope last []) store Closes :=
  settles_of_finished (fun _ => rfl) closes

theorem settles_statements_expression {last : Option Value} {token : Token} {value : Expr}
    {rest : List Statement}
    (settles : Evaluates value scope store fun value middle => value.isSignal = false ∧
      Settles (fun depth => statements (evaluate depth) scope (some value) rest) middle Closes) :
    Settles (fun depth => statements (evaluate depth) scope last (.expression token value :: rest))
      store Closes := by
  refine settles_bind (settles_bind (settles.imp fun value middle ⟨plain, settles⟩ => ?_))
  refine settles_of_finished (fun _ => rfl) ?_
  simpa only [Option.any_some, plain, Bool.false_eq_true, if_false] using settles

theorem settles_statements_binding {last : Option Value} {token name : Token} {value : Expr}
    {rest : List Statement}
    (settles : Evaluates value scope store fun value middle => value.isSignal = false ∧
      Settles (fun depth => statements (evaluate depth) scope none rest)
        (middle.bind scope name.literal value) Closes) :
    Settles
      (fun depth => statements (evaluate depth) scope last (.binding token name value :: rest))
      store Closes := by
  refine settles_bind (settles_bind (settles.imp fun value middle ⟨plain, settles⟩ => ?_))
  simp only [plain, Bool.false_eq_true, if_false]
  refine settles_bind (settles_of_finished (fun _ => rfl) ?_)
  exact settles_of_finished (fun _ => rfl) settles

theorem settles_block {token : Token} {texts : List Statement}
    (settles : Settles (fun depth => statements (evaluate depth) scope none texts) store
      fun value later => Ends (value.getD .null) later) :
    Settles (fun depth => block (evaluate depth) scope (.mk token texts)) store Ends :=
  settles_bind (settles.imp fun _ _ ends => settles_of_finished (fun _ => rfl) ends)

theorem settles_block_expression {token first : Token} {value : Expr}
    (settles : Evaluates value scope store fun value later =>
      value.isSignal = false ∧ Ends value later) :
    Settles (fun depth => block (evaluate depth) scope (.mk token [.expression first value])) store
      Ends := by
  refine settles_block (settles_statements_expression (settles.imp ?_))
  rintro value later ⟨plain, ends⟩
  exact ⟨plain, settles_statements_nil ends⟩

theorem settles_program {texts : List Statement}
    (settles : Settles (fun depth => statements (evaluate depth) scope none texts) store
      fun value later => Closes (value.map Value.unwrap) later) :
    Settles (fun depth => program (evaluate depth) scope ⟨texts⟩) store Closes :=
  settles_bind (settles.imp fun _ _ closes => settles_of_finished (fun _ => rfl) closes)

/-! ## Calls of functions -/

theorem bindAll_eq (scope : ScopeId) (names : List String) (values : List Value) (store : Store) :
    ∃ inside, bindAll scope names values store = (.finished (), inside) ∧
      inside.output = store.output ∧ inside.scopes.size = store.scopes.size ∧
      (∀ place, place ≠ scope → inside.scopes[place]? = store.scopes[place]?) ∧
      ∀ found, store.scopes[scope]? = some found →
        inside.scopes[scope]? = some ⟨found.outer, (names.zip values).foldl
          (fun bindings entry => Scope.put entry.1 entry.2 bindings) found.bindings⟩ := by
  induction names generalizing values store with
  | nil => exact ⟨store, by cases values <;> rfl, rfl, rfl, fun _ _ => rfl, fun _ => id⟩
  | cons name names ih =>
      cases values with
      | nil => exact ⟨store, rfl, rfl, rfl, fun _ _ => rfl, fun _ => id⟩
      | cons value values =>
          obtain ⟨inside, run_eq, output_eq, size_eq, others, here⟩ :=
            ih values (store.bind scope name value)
          refine ⟨inside, (Run.bind_of_finished rfl).trans run_eq, output_eq,
            size_eq.trans (store.size_bind scope name value), fun place differs => ?_,
            fun found found_eq => ?_⟩
          · rw [others place differs, Store.getElem?_bind, if_neg differs.symm]
          · refine here (found.bind name value) ?_
            rw [Store.getElem?_bind, if_pos rfl, found_eq]
            rfl

theorem exists_enters {outer : ScopeId} (opened : outer < store.scopes.size)
    {parameters : List String} (distinct : parameters.Nodup) (arguments : List Value) :
    ∃ inside, bindAll store.scopes.size parameters arguments (store.enclose (some outer)).2 =
        (.finished (), inside) ∧
      store.Enters outer store.scopes.size (parameters.zip arguments) inside := by
  obtain ⟨inside, run_eq, output_eq, size_eq, others, here⟩ :=
    bindAll_eq store.scopes.size parameters arguments (store.enclose (some outer)).2
  rw [store.size_enclose] at size_eq
  have spares : store.Spares inside := by
    refine ⟨output_eq, fun {place found} was => ?_⟩
    have differs : place ≠ store.scopes.size :=
      Nat.ne_of_lt (Array.getElem?_eq_some_iff.mp was).1
    exact (others place differs).trans ((store.spares_enclose (some outer)).scope_eq was)
  have found_eq := here ⟨some outer, []⟩ (by rw [Store.getElem?_enclose, if_pos rfl])
  refine ⟨inside, run_eq, spares, Nat.le_refl _,
    Nat.lt_of_lt_of_eq (Nat.lt_succ_self _) size_eq.symm, fun name => ?_⟩
  rw [Store.lookup_of_found found_eq]
  change (Scope.valueOf? name _).or (if outer < _ then _ else _) = _
  rw [Scope.valueOf?_foldl_put distinct, if_pos opened, spares.lookup_eq opened, Scope.valueOf?,
    Option.or_none]

theorem calls_function {serial : Nat} {parameters : List String} {body : Block} {outer : ScopeId}
    {arguments : List Value} (opened : outer < store.scopes.size) (distinct : parameters.Nodup)
    (settles : ∀ scope inside, store.Enters outer scope (parameters.zip arguments) inside →
      Settles (fun depth => block (evaluate depth) scope body) inside
        fun value later => Ends value.unwrap later) :
    Calls (.function serial parameters body outer) arguments store Ends := by
  obtain ⟨inside, run_eq, enters⟩ := exists_enters opened distinct arguments
  refine settles_bind (settles_of_finished (fun _ => rfl) ?_)
  refine settles_bind (settles_of_finished (fun _ => run_eq) ?_)
  exact settles_bind ((settles _ inside enters).imp fun _ _ ends =>
    settles_of_finished (fun _ => rfl) ends)

/-- A function whose body comes to a plain value gives that value. -/
theorem calls_function_of_plain {serial : Nat} {parameters : List String} {body : Block}
    {outer : ScopeId} {arguments : List Value} (opened : outer < store.scopes.size)
    (distinct : parameters.Nodup)
    (settles : ∀ scope inside, store.Enters outer scope (parameters.zip arguments) inside →
      Settles (fun depth => block (evaluate depth) scope body) inside
        fun value later => value.isSignal = false ∧ Ends value later) :
    Calls (.function serial parameters body outer) arguments store Ends := by
  refine calls_function opened distinct fun scope inside enters =>
    (settles scope inside enters).imp ?_
  rintro value later ⟨plain, ends⟩
  rwa [Value.unwrap_of_plain plain]

end

end Evaluation
end MarmosetLang
