import MarmosetLang.Proofs.Evaluation.Sight
import MarmosetLang.Proofs.Tree.Every

/-!
# What evaluation preserves

If all that can be seen from a scope has a property, and so has all that evaluation makes by itself,
then all that can be seen still has it after any program has been carried out there.  No expression
comes to a value without the property on the way: with an inspector that stops all values which lack
it, evaluation does the same as without one.
-/

namespace MarmosetLang

open Value

/-! ## Runs -/

/-- From any store that is in order, a run does the same as another one.  It leaves a store in order
and finishes with answers of a certain sort only. -/
def Run.Abides {α : Type} (Order : Store → Prop) (run other : Run α) (Answer : α → Prop) : Prop :=
  ∀ store, Order store →
    run store = other store ∧ Order (run store).2 ∧
      ∀ answer, (run store).1 = .finished answer → Answer answer

namespace Run.Abides

variable {α β : Type} {Order : Store → Prop} {run other : Run α} {Answer : α → Prop}
  {Later : β → Prop}

protected theorem pure {answer : α} (holds : Answer answer) :
    Run.Abides Order (pure answer) (pure answer) Answer := by
  intro store order
  refine ⟨rfl, order, ?_⟩
  rintro _ ⟨⟩
  exact holds

/-- One run after another.  An exhausted run stops both. -/
protected theorem bind {next next_other : α → Run β} (first : run.Abides Order other Answer)
    (second : ∀ answer, Answer answer → (next answer).Abides Order (next_other answer) Later) :
    Run.Abides Order (run >>= next) (other >>= next_other) Later := by
  intro store order
  obtain ⟨same, later_order, holds⟩ := first store order
  rcases ran : run store with ⟨answer | _, later⟩
  · rw [ran] at same later_order holds
    rw [bind_of_finished ran, bind_of_finished same.symm]
    exact second answer (holds answer rfl) later later_order
  · rw [ran] at same later_order
    rw [bind_of_exhausted ran, bind_of_exhausted same.symm]
    exact ⟨rfl, later_order, nofun⟩

theorem exhausted : Run.Abides Order (Run.exhausted : Run α) Run.exhausted Answer :=
  fun _ order => ⟨rfl, order, nofun⟩

/-- An inspector that lets all answers pass might as well be absent. -/
theorem inspect {inspect : α → Run α} (abides : run.Abides Order other Answer)
    (passes : ∀ answer, Answer answer → inspect answer = pure answer) :
    (run >>= inspect).Abides Order other Answer := by
  intro store order
  obtain ⟨same, later_order, holds⟩ := abides store order
  rcases ran : run store with ⟨answer | _, later⟩
  · rw [ran] at same later_order holds
    rw [bind_of_finished ran, passes answer (holds answer rfl)]
    exact ⟨same, later_order, holds⟩
  · rw [ran] at same later_order
    rw [bind_of_exhausted ran]
    exact ⟨same, later_order, nofun⟩

/-! ## Steps -/

variable {region : ScopeId → Prop} {Holds : Value → Prop}

theorem fresh : Run.fresh.Abides (Store.Confined · region Holds) Run.fresh fun _ => True :=
  fun _ confined => ⟨rfl, confined.of_scopes_eq rfl, fun _ _ => trivial⟩

theorem enclose {outer : ScopeId} (inside : region outer) :
    (Run.enclose outer).Abides (Store.Confined · region Holds) (Run.enclose outer) region := by
  intro store confined
  refine ⟨rfl, confined.enclose inside, ?_⟩
  rintro _ ⟨⟩
  exact confined.ahead _ (Nat.le_refl _)

theorem bindName (scope : ScopeId) (name : String) {value : Value} (every : value.Every Holds) :
    (Run.bindName scope name value).Abides (Store.Confined · region Holds)
      (Run.bindName scope name value) fun _ => True :=
  fun _ confined => ⟨rfl, confined.bind scope name every, fun _ _ => trivial⟩

theorem lookup (name : String) {scope : ScopeId} (inside : region scope) :
    (Run.lookup name scope).Abides (Store.Confined · region Holds) (Run.lookup name scope)
      fun found => ∀ value ∈ found, value.Every Holds := by
  intro store confined
  refine ⟨rfl, confined, ?_⟩
  rintro _ ⟨⟩ value found_eq
  exact confined.every_of_lookup inside found_eq

theorem printLines (lines : List String) :
    (Run.printLines lines).Abides (Store.Confined · region Holds) (Run.printLines lines)
      fun _ => True :=
  fun _ confined => ⟨rfl, confined.print lines, fun _ _ => trivial⟩

end Run.Abides

namespace Evaluation

open Run

/-! ## Laws -/

/-- All that evaluation of certain expressions in the scopes of a region makes by itself has a
property, and functions with the property lead to such expressions in such scopes only. -/
structure Lawful (Code : Expr → Prop) (region : ScopeId → Prop) (Holds : Value → Prop) : Prop
    extends Closed Holds where
  integer : ∀ {token value}, Code (.integer token value) → ∀ serial, Holds (.integer serial value)
  hash_nil : ∀ serial, Holds (.hash serial [])
  hash_insert : ∀ {entries key slot}, (∀ serial, Holds (.hash serial entries)) →
    key.slot? = some slot → ∀ value serial,
      Holds (.hash serial (Dictionary.insert entries ⟨slot, key, value⟩))
  function : ∀ {token parameters body scope}, Code (.function token parameters body) →
    body.Every Code → region scope → ∀ serial,
      Holds (.function serial (parameters.map Token.literal) body scope)
  called : ∀ {serial parameters body scope}, Holds (.function serial parameters body scope) →
    body.Every Code ∧ region scope

/-- Laws hold in every region if functions outside it do not count. -/
theorem Lawful.confine {Code : Expr → Prop} {Holds : Value → Prop}
    (lawful : Lawful Code (fun _ => True) Holds) (region : ScopeId → Prop) :
    Lawful Code region fun value => Holds value ∧ value.HomeIn region where
  wrapped serial number := ⟨lawful.wrapped serial number, trivial⟩
  boolean truth := ⟨lawful.boolean truth, trivial⟩
  null := ⟨lawful.null, trivial⟩
  string serial text := ⟨lawful.string serial text, trivial⟩
  array serial elements := ⟨lawful.array serial elements, trivial⟩
  builtin which := ⟨lawful.builtin which, trivial⟩
  returned serial value := ⟨lawful.returned serial value, trivial⟩
  error serial mistake := ⟨lawful.error serial mistake, trivial⟩
  integer code serial := ⟨lawful.integer code serial, trivial⟩
  hash_nil serial := ⟨lawful.hash_nil serial, trivial⟩
  hash_insert old slot_eq value serial :=
    ⟨lawful.hash_insert (fun serial => (old serial).1) slot_eq value serial, trivial⟩
  function code every inside serial := ⟨lawful.function code every trivial serial, inside⟩
  called holds := ⟨(lawful.called holds.1).1, holds.2⟩

variable {Code : Expr → Prop} {region : ScopeId → Prop} {Holds : Value → Prop}

/-- Two ways to evaluate certain expressions in the scopes of a region do the same and come to
values with a property. -/
def Follows (Code : Expr → Prop) (region : ScopeId → Prop) (Holds : Value → Prop)
    (nested other : Evaluator) : Prop :=
  ∀ expr scope, expr.Every Code → region scope →
    (nested expr scope).Abides (Store.Confined · region Holds) (other expr scope) (Every Holds)

/-- Operations on values with a property come to values with that property. -/
structure Operations.Preserves (operations : Operations) (Code : Expr → Prop)
    (region : ScopeId → Prop) (Holds : Value → Prop) : Prop where
  applyPrefix : ∀ operator operand, operand.Every Holds →
    (operations.applyPrefix operator operand).Abides (Store.Confined · region Holds)
      (operations.applyPrefix operator operand) (Every Holds)
  applyInfix : ∀ operator left right, left.Every Holds → right.Every Holds →
    (operations.applyInfix operator left right).Abides (Store.Confined · region Holds)
      (operations.applyInfix operator left right) (Every Holds)
  select : ∀ container position, container.Every Holds → position.Every Holds →
    (operations.select container position).Abides (Store.Confined · region Holds)
      (operations.select container position) (Every Holds)
  call : ∀ inner other callee arguments, Follows Code region Holds inner other →
    callee.Every Holds → (∀ argument ∈ arguments, argument.Every Holds) →
    (operations.call inner callee arguments).Abides (Store.Confined · region Holds)
      (operations.call other callee arguments) (Every Holds)

/-! ## Constructs -/

section

variable (lawful : Lawful Code region Holds)
include lawful

omit lawful in
/-- What is made with a serial number of its own. -/
theorem abides_made {make : Nat → Value} (every : ∀ serial, (make serial).Every Holds) :
    Abides (Store.Confined · region Holds) (Run.fresh >>= fun serial => pure (make serial))
      (Run.fresh >>= fun serial => pure (make serial)) (Every Holds) :=
  Abides.fresh.bind fun serial _ => .pure (every serial)

theorem abides_fail (mistake : Mistake) :
    (fail mistake).Abides (Store.Confined · region Holds) (fail mistake) (Every Holds) :=
  abides_made fun _ => .error (lawful.error _ _)

theorem abides_identifier (name : String) {scope : ScopeId} (inside : region scope) :
    (identifier name scope).Abides (Store.Confined · region Holds) (identifier name scope)
      (Every Holds) := by
  refine (Abides.lookup name inside).bind fun found every => ?_
  cases found with
  | some value => exact .pure (every value rfl)
  | none =>
      cases Builtin.ofName? name with
      | some builtin => exact .pure (.builtin (lawful.builtin _))
      | none => exact abides_fail lawful _

omit lawful in
theorem abides_ifPlain {run other : Run Value} {next next_other : Value → Run Value}
    (first : run.Abides (Store.Confined · region Holds) other (Every Holds))
    (second : ∀ value, value.Every Holds →
      (next value).Abides (Store.Confined · region Holds) (next_other value) (Every Holds)) :
    (ifPlain run next).Abides (Store.Confined · region Holds) (ifPlain other next_other)
      (Every Holds) := by
  refine first.bind fun value every => ?_
  cases value.isSignal with
  | true => exact .pure every
  | false => exact second value every

variable {nested other : Evaluator} (follows : Follows Code region Holds nested other)
  {scope : ScopeId} (inside : region scope)
include follows inside

omit lawful in
theorem abides_collect {next next_other : List Value → Run Value}
    (later : ∀ values : List Value, (∀ value ∈ values, value.Every Holds) →
      (next values).Abides (Store.Confined · region Holds) (next_other values) (Every Holds))
    {exprs : List Expr} (codes : ∀ expr ∈ exprs, expr.Every Code) :
    (collect nested scope next exprs).Abides (Store.Confined · region Holds)
      (collect other scope next_other exprs) (Every Holds) := by
  induction exprs generalizing next next_other with
  | nil => exact later [] (List.forall_mem_nil _)
  | cons first rest ih =>
      obtain ⟨code, rest_codes⟩ := List.forall_mem_cons.mp codes
      refine abides_ifPlain (follows first scope code inside) fun value every =>
        ih (fun values each => ?_) rest_codes
      exact later (value :: values) (List.forall_mem_cons.mpr ⟨every, each⟩)

/-- The entries entered so far would make a hash with the property. -/
theorem abides_collectEntries {pairs : List (Expr × Expr)} {entries : List (Entry Value)}
    (keys : ∀ pair ∈ pairs, pair.1.Every Code) (values : ∀ pair ∈ pairs, pair.2.Every Code)
    (each : ∀ entry ∈ entries, entry.key.Every Holds ∧ entry.value.Every Holds)
    (whole : ∀ serial, Holds (.hash serial entries)) :
    (collectEntries nested scope (fun entries => do
        let serial ← Run.fresh
        return .hash serial entries) entries pairs).Abides (Store.Confined · region Holds)
      (collectEntries other scope (fun entries => do
        let serial ← Run.fresh
        return .hash serial entries) entries pairs) (Every Holds) := by
  induction pairs generalizing entries with
  | nil =>
      exact abides_made fun serial =>
        .hash (whole serial) (fun entry member => (each entry member).1)
          fun entry member => (each entry member).2
  | cons first rest ih =>
      obtain ⟨key, value⟩ := first
      obtain ⟨key_code, rest_keys⟩ := List.forall_mem_cons.mp keys
      obtain ⟨value_code, rest_values⟩ := List.forall_mem_cons.mp values
      refine abides_ifPlain (follows key scope key_code inside) fun key key_every => ?_
      cases slot_eq : key.slot? with
      | none => exact abides_fail lawful _
      | some slot =>
          refine abides_ifPlain (follows value scope value_code inside) fun value value_every => ?_
          refine ih rest_keys rest_values ?_ (lawful.hash_insert whole slot_eq value)
          exact Dictionary.forall_mem_insert each ⟨key_every, value_every⟩

omit lawful in
/-- The value of a statement, if it has one, has the property. -/
theorem abides_statement (returned : ∀ serial value, Holds (.returned serial value))
    {text : Statement} (code : text.Every Code) :
    (statement nested scope text).Abides (Store.Confined · region Holds)
      (statement other scope text) fun found => ∀ value ∈ found, value.Every Holds := by
  cases code with
  | expression code =>
      refine (follows _ scope code inside).bind fun value every => .pure ?_
      rintro _ ⟨⟩
      exact every
  | returning code =>
      refine (follows _ scope code inside).bind fun value every => ?_
      cases value.isSignal with
      | true =>
          refine .pure ?_
          rintro _ ⟨⟩
          exact every
      | false =>
          refine Abides.fresh.bind fun serial _ => .pure ?_
          rintro _ ⟨⟩
          exact .returned (returned _ _) every
  | binding code =>
      refine (follows _ scope code inside).bind fun value every => ?_
      cases value.isSignal with
      | true =>
          refine .pure ?_
          rintro _ ⟨⟩
          exact every
      | false => exact (Abides.bindName scope _ every).bind fun _ _ => .pure nofun

omit lawful in
theorem abides_statements (returned : ∀ serial value, Holds (.returned serial value))
    {texts : List Statement} (codes : ∀ text ∈ texts, text.Every Code) {last : Option Value}
    (last_every : ∀ value ∈ last, value.Every Holds) :
    (statements nested scope last texts).Abides (Store.Confined · region Holds)
      (statements other scope last texts) fun found => ∀ value ∈ found, value.Every Holds := by
  induction texts generalizing last with
  | nil => exact .pure last_every
  | cons first rest ih =>
      obtain ⟨code, rest_codes⟩ := List.forall_mem_cons.mp codes
      refine (abides_statement follows inside returned code).bind fun found every => ?_
      cases found.any Value.isSignal with
      | true => exact .pure every
      | false => exact ih rest_codes every

theorem abides_block {body : Block} (code : body.Every Code) :
    (block nested scope body).Abides (Store.Confined · region Holds) (block other scope body)
      (Every Holds) := by
  have no_value : ∀ value ∈ (none : Option Value), value.Every Holds := nofun
  refine (abides_statements follows inside lawful.returned code.statements no_value).bind
    fun found every => .pure ?_
  cases found with
  | none => exact .null lawful.null
  | some value => exact every value rfl

theorem abides_program {text : Program} (code : text.Every Code) :
    (program nested scope text).Abides (Store.Confined · region Holds) (program other scope text)
      fun found => ∀ value ∈ found, value.Every Holds := by
  have no_value : ∀ value ∈ (none : Option Value), value.Every Holds := nofun
  refine (abides_statements follows inside lawful.returned code no_value).bind
    fun found every => .pure fun value value_eq => ?_
  obtain ⟨wrapped, wrapped_eq, rfl⟩ := Option.map_eq_some_iff.mp value_eq
  exact (every wrapped wrapped_eq).unwrap

theorem abides_choose (condition : Value) {consequence : Block} {alternative : Option Block}
    (either : consequence.Every Code) (otherwise : ∀ body ∈ alternative, body.Every Code) :
    (choose nested scope condition consequence alternative).Abides
      (Store.Confined · region Holds)
      (choose other scope condition consequence alternative) (Every Holds) := by
  unfold choose
  split
  · exact abides_block lawful follows inside either
  · cases alternative with
    | some alternative => exact abides_block lawful follows inside (otherwise alternative rfl)
    | none => exact .pure (.null lawful.null)

omit lawful follows inside in
theorem abides_bindAll (scope : ScopeId) (names : List String) {values : List Value}
    (each : ∀ value ∈ values, value.Every Holds) :
    (bindAll scope names values).Abides (Store.Confined · region Holds)
      (bindAll scope names values) fun _ => True := by
  induction names generalizing values with
  | nil => exact .pure trivial
  | cons name names ih =>
      cases values with
      | nil => exact .pure trivial
      | cons value values =>
          obtain ⟨every, rest⟩ := List.forall_mem_cons.mp each
          exact (Abides.bindName scope name every).bind fun _ _ => ih rest

omit inside in
/-- A call keeps the property if the lengths that it may find have it. -/
theorem abides_call {callee : Value} {arguments : List Value} (every : callee.Every Holds)
    (each : ∀ argument ∈ arguments, argument.Every Holds)
    (length : ∀ argument, callee = .builtin .len → arguments = [argument] →
      ∀ serial, (Builtin.length serial argument).Every Holds) :
    (call nested callee arguments).Abides (Store.Confined · region Holds)
      (call other callee arguments) (Every Holds) := by
  cases every with
  | function holds =>
      obtain ⟨code, inside⟩ := lawful.called holds
      refine (Abides.enclose inside).bind fun scope scope_inside => ?_
      refine (abides_bindAll scope _ each).bind fun _ _ => ?_
      exact (abides_block lawful follows scope_inside code).bind fun value every =>
        .pure every.unwrap
  | builtin =>
      refine Abides.fresh.bind fun serial _ => (Abides.printLines _).bind fun _ _ => .pure ?_
      refine Builtin.every_result lawful.toClosed serial _ each ?_
      rintro argument rfl arguments_eq
      exact length argument rfl arguments_eq serial
  | _ => exact abides_fail lawful _

omit follows inside in
/-- The operators of the language make nothing but what has the property, and so only the way to
call is left to be looked at. -/
theorem preserves_of_call {call : Evaluator → Value → List Value → Run Value}
    (keeps : ∀ inner other callee arguments, Follows Code region Holds inner other →
      callee.Every Holds → (∀ argument ∈ arguments, argument.Every Holds) →
      (call inner callee arguments).Abides (Store.Confined · region Holds)
        (call other callee arguments) (Every Holds)) :
    ({ Operations.standard with call } : Operations).Preserves Code region Holds where
  applyPrefix _ _ _ :=
    abides_made fun serial => Operation.every_applyPrefix lawful.toClosed serial _ _
  applyInfix _ _ _ _ _ :=
    abides_made fun serial => Operation.every_applyInfix lawful.toClosed serial _ _ _
  select _ _ every _ :=
    abides_made fun serial => Operation.every_select lawful.toClosed serial every _
  call := keeps

omit follows inside in
/-- The operations of the language keep a property that all numbers have. -/
theorem Lawful.preserves_standard (integer : ∀ serial number, Holds (.integer serial number)) :
    Operations.standard.Preserves Code region Holds :=
  preserves_of_call lawful fun _ _ _ _ follows every each =>
    abides_call lawful follows every each fun argument _ _ serial =>
      Builtin.every_length lawful.toClosed integer serial argument

omit inside in
/-- One level of evaluation keeps the property if the levels below it do. -/
theorem follows_expression {operations : Operations}
    (preserves : operations.Preserves Code region Holds) {inner inner_other : Evaluator}
    (follows_inner : Follows Code region Holds inner inner_other) :
    Follows Code region Holds (expression operations nested inner)
      (expression operations other inner_other) := by
  intro expr scope code inside
  cases code with
  | identifier => exact abides_identifier lawful _ inside
  | integer code => exact abides_made fun serial => .integer (lawful.integer code serial)
  | boolean => exact .pure (.boolean (lawful.boolean _))
  | string => exact abides_made fun _ => .string (lawful.string _ _)
  | array _ codes =>
      refine abides_collect follows inside (fun values each => ?_) codes
      exact abides_made fun _ => .array (lawful.array _ _) each
  | hash _ keys values =>
      exact abides_collectEntries lawful follows inside keys values (List.forall_mem_nil _)
        lawful.hash_nil
  | prefixed _ code =>
      exact abides_ifPlain (follows _ scope code inside) fun value every =>
        preserves.applyPrefix _ value every
  | infixed _ left_code right_code =>
      exact abides_ifPlain (follows _ scope left_code inside) fun left left_every =>
        abides_ifPlain (follows _ scope right_code inside) fun right right_every =>
          preserves.applyInfix _ left right left_every right_every
  | conditional _ asked either otherwise =>
      exact abides_ifPlain (follows _ scope asked inside) fun condition _ =>
        abides_choose lawful follows inside condition either otherwise
  | function code body_code =>
      exact abides_made fun serial => .function (lawful.function code body_code inside serial)
  | call _ called given =>
      refine abides_ifPlain (follows _ scope called inside) fun callee every => ?_
      refine abides_collect follows inside (fun arguments each => ?_) given
      exact preserves.call inner inner_other callee arguments follows_inner every each
  | index _ whence place =>
      exact abides_ifPlain (follows _ scope whence inside) fun container container_every =>
        abides_ifPlain (follows _ scope place inside) fun position position_every =>
          preserves.select container position container_every position_every

end

/-! ## Inspection -/

/-- Evaluate an expression as with `evaluateWith`, but hand every value that an expression comes to
over to an inspector. -/
def inspected (inspect : Value → Run Value) (operations : Operations) (depth : Nat) (expr : Expr)
    (scope : ScopeId) : Run Value :=
  match depth with
  | 0 => Run.exhausted
  | depth + 1 =>
      expression operations (inspected inspect operations depth)
        (inspected inspect operations (depth + 1 - callWeight)) expr scope >>= inspect
termination_by depth
decreasing_by
  · exact Nat.lt_succ_self _
  · exact Nat.sub_lt (Nat.succ_pos _) (by decide)

theorem follows_inspected {operations : Operations} (lawful : Lawful Code region Holds)
    (preserves : operations.Preserves Code region Holds) {inspect : Value → Run Value}
    (passes : ∀ value, value.Every Holds → inspect value = pure value) (depth : Nat) :
    Follows Code region Holds (inspected inspect operations depth)
      (evaluateWith operations depth) := by
  -- A call goes down several levels at once, so all lesser depths are needed.
  induction depth using Nat.strongRecOn with
  | ind depth ih =>
      intro expr scope code inside
      cases depth with
      | zero =>
          rw [inspected, evaluateWith_zero]
          exact .exhausted
      | succ depth =>
          have less : depth + 1 - callWeight < depth + 1 :=
            Nat.sub_lt (Nat.succ_pos depth) (by decide)
          rw [inspected, evaluateWith_succ]
          exact (follows_expression lawful (ih depth (Nat.lt_succ_self depth)) preserves
            (ih _ less) expr scope code inside).inspect passes

/-- After a program everything that can be seen has a property: from the scope in which it was
carried out, from the scopes opened on the way, and from what it has come to. -/
structure Preserved (Holds : Value → Prop) (store : Store) (home : ScopeId)
    (ended : Outcome (Option Value) × Store) : Prop where
  /-- From the scope of the program. -/
  home : ended.2.HoldsFrom Holds home
  /-- From new scopes. -/
  opened : ∀ scope, store.scopes.size ≤ scope → ended.2.HoldsFrom Holds scope
  /-- From its value. -/
  value : ∀ value, ended.1 = .finished (some value) →
    value.Every Holds ∧ ∀ scope, value.Captures scope → ended.2.HoldsFrom Holds scope

/-- Where all that can be seen has a property, it still has after any program whose expressions are
as demanded, and an inspector of all values finds none that lacks it. -/
theorem preserved_program {operations : Operations} (lawful : Lawful Code (fun _ => True) Holds)
    (preserves : ∀ region,
      operations.Preserves Code region fun value => Holds value ∧ value.HomeIn region)
    {store : Store} {home : ScopeId} (holds : store.HoldsFrom Holds home) {text : Program}
    (code : text.Every Code) (depth : Nat) :
    Preserved Holds store home (program (evaluateWith operations depth) home text store) ∧
      ∀ inspect : Value → Run Value,
        (∀ value, value.Every Holds → inspect value = pure value) →
          program (inspected inspect operations depth) home text store =
            program (evaluateWith operations depth) home text store := by
  let region := fun scope => store.Sees home scope ∨ store.scopes.size ≤ scope
  have inspection (inspect : Value → Run Value)
      (passes : ∀ value, value.Every Holds → inspect value = pure value) :=
    abides_program (lawful.confine region)
      (follows_inspected (lawful.confine region) (preserves region)
        (fun value every => passes value (every.mono fun _ => And.left)) depth)
      (.inl .here) code store holds.confined
  refine ⟨?_, fun inspect passes => (inspection inspect passes).1⟩
  obtain ⟨same, confined, every⟩ := inspection pure fun _ _ => rfl
  rw [same] at confined every
  refine ⟨confined.holdsFrom (.inl .here), fun scope beyond => confined.holdsFrom (.inr beyond),
    fun value ended => ?_⟩
  have value_every := every _ ended value rfl
  exact ⟨value_every.mono fun _ => And.left,
    fun scope captures => confined.holdsFrom (value_every.region_of_captures captures)⟩

end Evaluation
end MarmosetLang
