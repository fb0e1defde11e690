import MarmosetLang.Proofs.Evaluation.Settling
import Mathlib.Data.List.Forall2

/-!
# Functions on rows

A program that maps a function over a row and reduces a row with a function, both by a function
inside that calls itself until no elements are left.  Its name is bound only after it has been made:
it finds itself in the scope in which it was made, which is also where it finds the function that it
is to apply.

One loop serves both: it goes on with the rest of the row and with what a step makes of what has
been gathered so far.  Whatever the steps keep holds of the end, for rows of any length.
-/

namespace MarmosetLang

namespace RowFunctions

open Evaluation

/-! ## The program -/

/-- The text that binds the functions. -/
def source : String :=
  "let map = fn(arr, f) \x7b
\tlet iter = fn(arr, accumulated) \x7b
\t\tif (len(arr) == 0) \x7b
\t\t\taccumulated
\t\t\x7d else \x7b
\t\t\titer(rest(arr), push(accumulated, f(first(arr))));
\t\t\x7d
\t\x7d;
\titer(arr, []);
\x7d;

let reduce = fn(arr, initial, f) \x7b
\tlet iter = fn(arr, result) \x7b
\t\tif (len(arr) == 0) \x7b
\t\t\tresult
\t\t\x7d else \x7b
\t\t\titer(rest(arr), f(result, first(arr)));
\t\t\x7d
\t\x7d;
\titer(arr, initial);
\x7d;

let sum = fn(arr) \x7b reduce(arr, 0, fn(initial, el) \x7b initial + el \x7d) \x7d;
let double = fn(x) \x7b x * 2 \x7d;
"

/-- A name that stands at a place. -/
def word (name : String) (place : Nat) : Expr :=
  .identifier ⟨.identifier, name, place⟩

/-- A call of a name that stands at a place. -/
def applied (name : String) (place : Nat) (arguments : List Expr) : Expr :=
  .call ⟨.openParen, "(", place + name.length⟩ (word name place) arguments

/-- The question whether there are no elements left. -/
def askEmpty (place : Nat) : Expr :=
  .infixed ⟨.equal, "==", place + 9⟩ (applied "len" place [word "arr" (place + 4)])
    (.integer ⟨.integer, "0", place + 12⟩ 0)

/-- The body of a loop over `arr`, which starts at a place and takes a step from what has been
gathered under a name. -/
def loopBody (gathered : String) (place : Nat) (step : Expr) : Block :=
  let behind := place + gathered.length
  .mk ⟨.openBrace, "\x7b", place⟩ [.expression ⟨.ifWord, "if", place + 4⟩
    (.conditional ⟨.ifWord, "if", place + 4⟩ (askEmpty (place + 8))
      (.mk ⟨.openBrace, "\x7b", place + 23⟩
        [.expression ⟨.identifier, gathered, place + 28⟩ (word gathered (place + 28))])
      (some (.mk ⟨.openBrace, "\x7b", behind + 38⟩
        [.expression ⟨.identifier, "iter", behind + 43⟩
          (applied "iter" (behind + 43)
            [applied "rest" (behind + 48) [word "arr" (behind + 53)], step])])))]

/-- The body of a function that starts at a place, binds a loop and then calls it, at another place,
with something to start from. -/
def walkBody (gathered : String) (place behind : Nat) (step start : Expr) : Block :=
  .mk ⟨.openBrace, "\x7b", place⟩
    [.binding ⟨.letWord, "let", place + 3⟩ ⟨.identifier, "iter", place + 7⟩
        (.function ⟨.functionWord, "fn", place + 14⟩
          [⟨.identifier, "arr", place + 17⟩, ⟨.identifier, gathered, place + 22⟩]
          (loopBody gathered (place + gathered.length + 24) step)),
      .expression ⟨.identifier, "iter", behind⟩
        (applied "iter" behind [word "arr" (behind + 5), start])]

/-- One more value is put at the end of those gathered. -/
def mapStep : Expr :=
  applied "push" 126
    [word "accumulated" 131, applied "f" 144 [applied "first" 146 [word "arr" 152]]]

/-- The body of `map`. -/
def mapBody : Block :=
  walkBody "accumulated" 21 170 mapStep (.array ⟨.openBracket, "[", 180⟩ [])

/-- The function makes a new result of the old one and an element. -/
def reduceStep : Expr :=
  applied "f" 317 [word "result" 319, applied "first" 327 [word "arr" 333]]

/-- The body of `reduce`. -/
def reduceBody : Block :=
  walkBody "result" 222 350 reduceStep (word "initial" 360)

/-- The body of the function with which `sum` reduces. -/
def addBody : Block :=
  .mk ⟨.openBrace, "\x7b", 425⟩ [.expression ⟨.identifier, "initial", 427⟩
    (.infixed ⟨.plus, "+", 435⟩ (word "initial" 427) (word "el" 437))]

/-- The body of `sum`. -/
def sumBody : Block :=
  .mk ⟨.openBrace, "\x7b", 392⟩ [.expression ⟨.identifier, "reduce", 394⟩
    (applied "reduce" 394 [word "arr" 401, .integer ⟨.integer, "0", 406⟩ 0,
      .function ⟨.functionWord, "fn", 409⟩
        [⟨.identifier, "initial", 412⟩, ⟨.identifier, "el", 421⟩] addBody])]

/-- The body of `double`. -/
def doubleBody : Block :=
  .mk ⟨.openBrace, "\x7b", 465⟩ [.expression ⟨.identifier, "x", 467⟩
    (.infixed ⟨.asterisk, "*", 469⟩ (word "x" 467) (.integer ⟨.integer, "2", 471⟩ 2))]

/-- The statement that binds a function to a name. -/
def letFunction (name : String) (place : Nat) (parameters : List Token) (body : Block) :
    Statement :=
  .binding ⟨.letWord, "let", place⟩ ⟨.identifier, name, place + 4⟩
    (.function ⟨.functionWord, "fn", place + name.length + 7⟩ parameters body)

/-- The program that binds the functions. -/
def library : Program :=
  ⟨[letFunction "map" 0 [⟨.identifier, "arr", 13⟩, ⟨.identifier, "f", 18⟩] mapBody,
    letFunction "reduce" 189
      [⟨.identifier, "arr", 205⟩, ⟨.identifier, "initial", 210⟩, ⟨.identifier, "f", 219⟩]
      reduceBody,
    letFunction "sum" 374 [⟨.identifier, "arr", 387⟩] sumBody,
    letFunction "double" 446 [⟨.identifier, "x", 462⟩] doubleBody]⟩

/-- The program that asks for the sum of the doubled elements of `xs`. -/
def sumOfDoubled : Program :=
  ⟨[.expression ⟨.identifier, "sum", 0⟩
    (applied "sum" 0 [applied "map" 4 [word "xs" 8, word "double" 12]])]⟩

/-! ## Loops -/

section

variable {scope : ScopeId} {store : Store} {Ends : Value → Store → Prop}

/-- A builtin function is called with the value of a name. -/
theorem evaluates_builtin_of_name (builtin : Builtin) {name : String} {value : Value}
    {place behind : Nat} (silent : builtin ≠ .print)
    (unbound : store.lookup builtin.name scope = none)
    (bound : store.lookup name scope = some value) (plain : value.isSignal = false)
    (ends : ∀ serial later, store.Spares later → Ends (builtin.result serial [value]) later) :
    Evaluates (applied builtin.name place [word name behind]) scope store Ends := by
  refine evaluates_call (evaluates_builtin rfl unbound ⟨rfl, ?_⟩)
  refine settles_collect_cons (evaluates_name bound ⟨plain, settles_collect_nil ?_⟩)
  refine (calls_builtin ?_ (ends _ _ (.fresh (.refl store)))).deepen
  cases builtin with
  | print => exact absurd rfl silent
  | _ => rfl

theorem evaluates_askEmpty {row place : Nat} {elements : List Value}
    (unbound : store.lookup "len" scope = none)
    (bound : store.lookup "arr" scope = some (.array row elements))
    (ends : ∀ later, store.Spares later → Ends (.boolean (elements.length = 0)) later) :
    Evaluates (askEmpty place) scope store Ends := by
  refine evaluates_infixed ?_
  refine evaluates_builtin_of_name .len (by decide) unbound bound rfl fun serial middle spares => ?_
  refine ⟨rfl, evaluates_integer ⟨rfl, ?_⟩⟩
  change Ends (.boolean (decide ((elements.length : Int) = (0 : Nat)))) _
  simp only [Int.ofNat_inj]
  exact ends _ spares.fresh.fresh

end

section

variable {base : Store} {home : ScopeId} {serial place row : Nat} {gathered : String}
  {step : Expr} {elements : List Value} {result : Value} {store : Store}

/-- The function that a loop calls again and again. -/
def loop (serial : Nat) (gathered : String) (place : Nat) (step : Expr) (home : ScopeId) : Value :=
  .function serial ["arr", gathered] (loopBody gathered place step) home

/-- A loop gives what has been gathered if there are no elements, and else it calls itself. -/
theorem calls_loop_once {Ends : Value → Store → Prop} (opened : home < store.scopes.size)
    (unbound : store.lookup "len" home = none) (apart : gathered ∉ ["arr", "len"])
    (plain : result.isSignal = false)
    (ends : elements = [] → ∀ later, store.Spares later → Ends result later)
    (proceeds : elements ≠ [] → ∀ behind scope inside,
      store.Enters home scope [("arr", .array row elements), (gathered, result)] inside →
      Evaluates
        (applied "iter" behind [applied "rest" (behind + 5) [word "arr" (behind + 10)], step])
        scope inside fun value later => value.isSignal = false ∧ Ends value later) :
    Calls (loop serial gathered place step home) [.array row elements, result] store Ends := by
  simp only [List.mem_cons, List.not_mem_nil, or_false, not_or] at apart
  obtain ⟨not_arr, not_len⟩ := apart
  have distinct : ["arr", gathered].Nodup := by simpa using Ne.symm not_arr
  refine calls_function_of_plain opened distinct fun scope inside enters => ?_
  change store.Enters home scope [("arr", .array row elements), (gathered, result)] inside
    at enters
  have len_unbound := (enters.lookup_around (by simp [Scope.valueOf?, not_len])).trans unbound
  refine settles_block_expression (evaluates_conditional ?_)
  refine evaluates_askEmpty len_unbound (enters.lookup_here (if_pos rfl)) fun later spares =>
    ⟨rfl, ?_⟩
  replace enters := enters.trans spares
  cases elements with
  | nil =>
      have bound : later.lookup gathered scope = some result :=
        enters.lookup_here (by simp [Scope.valueOf?, Ne.symm not_arr])
      exact settles_block_expression
        (evaluates_name bound ⟨plain, plain, plain, ends rfl later enters.spares⟩)
  | cons first rest =>
      refine settles_block_expression
        ((proceeds (List.cons_ne_nil first rest) _ scope later enters).imp ?_)
      rintro value final ⟨plain, ends⟩
      exact ⟨plain, plain, plain, ends⟩

/-- What the steps of a loop keep holds of what it gives.  The induction is on the elements that are
left. -/
theorem calls_loop (Holds : List Value → Value → Prop) (opened : home < base.scopes.size)
    (builtins : base.LeavesBuiltins home)
    (bound : base.lookup "iter" home = some (loop serial gathered place step home))
    (apart : gathered ∉ ["arr", "iter", "len", "rest"])
    (steps : ∀ {scope row first rest result inside}, Holds (first :: rest) result →
      result.isSignal = false →
      base.Enters home scope [("arr", .array row (first :: rest)), (gathered, result)] inside →
      Evaluates step scope inside fun value later =>
        value.isSignal = false ∧ Holds rest value ∧ inside.Spares later)
    (spares : base.Spares store) (holds : Holds elements result)
    (plain : result.isSignal = false) :
    Calls (loop serial gathered place step home) [.array row elements, result] store
      fun value later => value.isSignal = false ∧ Holds [] value ∧ store.Spares later := by
  simp only [List.mem_cons, List.not_mem_nil, or_false, not_or] at apart
  obtain ⟨not_arr, not_iter, not_len, not_rest⟩ := apart
  have apart : gathered ∉ ["arr", "len"] := by simp [not_arr, not_len]
  induction elements generalizing result row store with
  | nil =>
      have unbound := (spares.lookup_eq opened "len").trans (builtins .len)
      exact calls_loop_once (spares.lt_size opened) unbound apart plain
        (fun _ later spared => ⟨plain, holds, spared⟩) fun nonempty => absurd rfl nonempty
  | cons first rest ih =>
      have unbound := (spares.lookup_eq opened "len").trans (builtins .len)
      refine calls_loop_once (spares.lt_size opened) unbound apart plain
        (fun empty => absurd empty (List.cons_ne_nil first rest))
        fun _ behind scope inside enters => ?_
      -- The call has a scope of its own, but it sees the loop and the builtin functions as before.
      have entered := enters.since spares opened
      have iter_bound := (entered.lookup_around (by simp [Scope.valueOf?, not_iter])).trans bound
      have rest_unbound : inside.lookup "rest" scope = none :=
        (entered.lookup_around (by simp [Scope.valueOf?, not_rest])).trans (builtins .rest)
      refine evaluates_call (evaluates_name iter_bound ⟨rfl, ?_⟩)
      refine settles_collect_cons (evaluates_builtin_of_name .rest (by decide) rest_unbound
        (entered.lookup_here (if_pos rfl)) rfl fun serial middle spared => ⟨rfl, ?_⟩)
      refine settles_collect_cons ((steps holds plain (entered.trans spared)).imp ?_)
      rintro value later ⟨value_plain, value_holds, spares_later⟩
      refine ⟨value_plain, settles_collect_nil (Settles.deepen ?_)⟩
      have spared := enters.spares.trans (spared.trans spares_later)
      refine (ih (spares.trans spared) value_holds value_plain).imp ?_
      rintro answer final ⟨answer_plain, answer_holds, spares_final⟩
      exact ⟨answer_plain, answer_plain, answer_holds, spared.trans spares_final⟩

end

/-- A function that walks along a row binds its loop in its own scope, so what the steps keep holds
of what it gives. -/
theorem settles_walkBody (Holds : List Value → Value → Prop) {store inside : Store}
    {outer scope : ScopeId} {bindings : List (String × Value)} {gathered : String}
    {place behind row : Nat} {step start : Expr} {elements : List Value}
    (enters : store.Enters outer scope bindings inside) (builtins : store.LeavesBuiltins outer)
    (unnamed : ∀ builtin : Builtin, Scope.valueOf? builtin.name bindings = none)
    (arr_bound : Scope.valueOf? "arr" bindings = some (.array row elements))
    (apart : gathered ∉ ["arr", "iter", "len", "rest"])
    (starts : ∀ {iter base}, store.Enters outer scope (("iter", iter) :: bindings) base →
      Evaluates start scope base fun value later =>
        value.isSignal = false ∧ Holds elements value ∧ base.Spares later)
    (steps : ∀ {iter inner row first rest result final}, Holds (first :: rest) result →
      result.isSignal = false →
      store.Enters outer inner
        (("arr", .array row (first :: rest)) :: (gathered, result) :: ("iter", iter) :: bindings)
        final →
      Evaluates step inner final fun value later =>
        value.isSignal = false ∧ Holds rest value ∧ final.Spares later) :
    Settles (fun depth => block (evaluate depth) scope (walkBody gathered place behind step start))
      inside fun value later =>
        value.isSignal = false ∧ Holds [] value ∧ store.Spares later := by
  refine settles_block (settles_statements_binding (evaluates_function ⟨rfl, ?_⟩))
  -- The loop lies in the scope in which its name is bound only now, and will find itself there.
  have entered := (enters.trans (.fresh (.refl inside))).bind "iter"
    (loop inside.made gathered (place + gathered.length + 24) step scope)
  have base_builtins := entered.leavesBuiltins builtins fun builtin =>
    (if_neg (by cases builtin <;> decide)).trans (unnamed builtin)
  have iter_bound := entered.lookup_here (if_pos rfl)
  refine settles_statements_expression (evaluates_call (evaluates_name iter_bound ⟨rfl, ?_⟩))
  refine settles_collect_cons (evaluates_name (entered.lookup_here arr_bound) ⟨rfl, ?_⟩)
  refine settles_collect_cons ((starts entered).imp ?_)
  rintro value middle ⟨value_plain, value_holds, spared⟩
  refine ⟨value_plain, settles_collect_nil (Settles.deepen ?_)⟩
  refine (calls_loop Holds entered.opened base_builtins iter_bound apart
    (fun holds plain inner_enters => steps holds plain (entered.append inner_enters)) spared
    value_holds value_plain).imp ?_
  rintro answer later ⟨answer_plain, answer_holds, spares_later⟩
  exact ⟨answer_plain, settles_statements_nil
    ⟨answer_plain, answer_holds, entered.spares.trans (spared.trans spares_later)⟩⟩

/-! ## Mapping and reducing -/

section

variable {store : Store} {home : ScopeId} {serial row : Nat} {elements : List Value} {f : Value}

/-- Mapping gives the row of what the function gives for the elements. -/
theorem calls_map (Gives : Value → Value → Prop) (opened : home < store.scopes.size)
    (builtins : store.LeavesBuiltins home) (plain : f.isSignal = false)
    (gives : ∀ element ∈ elements, element.isSignal = false ∧
      ∀ later, store.Spares later → Calls f [element] later fun value final =>
        value.isSignal = false ∧ Gives element value ∧ later.Spares final) :
    Calls (.function serial ["arr", "f"] mapBody home) [.array row elements, f] store
      fun value later => ∃ copy values, value = .array copy values ∧
        List.Forall₂ Gives elements values ∧ store.Spares later := by
  -- What has been gathered belongs to the elements passed.
  let Holds (rest : List Value) (value : Value) : Prop := ∃ copy passed values,
    value = .array copy values ∧ elements = passed ++ rest ∧ List.Forall₂ Gives passed values
  refine calls_function_of_plain opened (by decide) fun scope inside enters => ?_
  refine (settles_walkBody Holds enters builtins (fun builtin => by cases builtin <;> rfl) rfl
    (by decide) ?_ ?_).imp ?_
  · intro iter base entered
    exact evaluates_array_nil ⟨rfl, ⟨_, [], [], rfl, rfl, .nil⟩, .fresh (.refl base)⟩
  · rintro iter inner copy first rest _ final ⟨_, passed, values, rfl, elements_eq, given⟩ -
      entered
    have push_unbound := (entered.lookup_around rfl).trans (builtins .push)
    have first_unbound := (entered.lookup_around rfl).trans (builtins .first)
    obtain ⟨first_plain, first_gives⟩ := gives first (by simp [elements_eq])
    refine evaluates_call (evaluates_builtin rfl push_unbound ⟨rfl, ?_⟩)
    refine settles_collect_cons (evaluates_name (entered.lookup_here rfl) ⟨rfl, ?_⟩)
    refine settles_collect_cons (evaluates_call
      (evaluates_name (entered.lookup_here rfl) ⟨plain, ?_⟩))
    refine settles_collect_cons (evaluates_builtin_of_name .first (by decide) first_unbound
      (entered.lookup_here rfl) rfl fun serial middle spared => ⟨first_plain, ?_⟩)
    refine settles_collect_nil (Settles.deepen
      ((first_gives middle (entered.spares.trans spared)).imp ?_))
    rintro value later ⟨value_plain, value_given, spares_later⟩
    refine ⟨value_plain, settles_collect_nil (Settles.deepen (calls_builtin rfl ?_))⟩
    refine ⟨rfl, ⟨_, passed ++ [first], values ++ [value], rfl, ?_, ?_⟩, ?_⟩
    · rw [elements_eq, List.append_assoc, List.singleton_append]
    · exact List.rel_append given (.cons value_given .nil)
    · exact (spared.trans spares_later).fresh
  · rintro value later ⟨plain, ⟨copy, passed, values, rfl, elements_eq, given⟩, spares⟩
    rw [List.append_nil] at elements_eq
    rw [elements_eq]
    exact ⟨rfl, copy, values, rfl, given, spares⟩

/-- What the function keeps from one result to the next holds of what reducing gives. -/
theorem calls_reduce (Holds : List Value → Value → Prop) {initial : Value}
    (opened : home < store.scopes.size) (builtins : store.LeavesBuiltins home)
    (initial_plain : initial.isSignal = false) (plain : f.isSignal = false)
    (keeps : ∀ {first rest result}, Holds (first :: rest) result → first.isSignal = false ∧
      ∀ later, store.Spares later → Calls f [result, first] later fun value final =>
        value.isSignal = false ∧ Holds rest value ∧ later.Spares final)
    (holds : Holds elements initial) :
    Calls (.function serial ["arr", "initial", "f"] reduceBody home)
      [.array row elements, initial, f] store fun value later =>
        value.isSignal = false ∧ Holds [] value ∧ store.Spares later := by
  refine calls_function_of_plain opened (by decide) fun scope inside enters => ?_
  refine (settles_walkBody Holds enters builtins (fun builtin => by cases builtin <;> rfl) rfl
    (by decide) ?_ ?_).imp fun _ _ ends => ⟨ends.1, ends⟩
  · intro iter base entered
    exact evaluates_name (entered.lookup_here rfl) ⟨initial_plain, holds, .refl base⟩
  · intro iter inner copy first rest result final holds result_plain entered
    have first_unbound := (entered.lookup_around rfl).trans (builtins .first)
    obtain ⟨first_plain, first_keeps⟩ := keeps holds
    refine evaluates_call (evaluates_name (entered.lookup_here rfl) ⟨plain, ?_⟩)
    refine settles_collect_cons (evaluates_name (entered.lookup_here rfl) ⟨result_plain, ?_⟩)
    refine settles_collect_cons (evaluates_builtin_of_name .first (by decide) first_unbound
      (entered.lookup_here rfl) rfl fun serial middle spared => ⟨first_plain, ?_⟩)
    refine settles_collect_nil (Settles.deepen
      ((first_keeps middle (entered.spares.trans spared)).imp ?_))
    rintro value later ⟨value_plain, value_holds, spares_later⟩
    exact ⟨value_plain, value_holds, spared.trans spares_later⟩

end

end RowFunctions
end MarmosetLang
