import MarmosetLang.Grammar.Program
import MarmosetLang.Proofs.Evaluation.RowFunctions
import Mathlib.Algebra.Ring.Int.Defs

/-!
# Sums of rows

The program that adds up the doubled elements of a row comes to what it says for every row of
numbers.  Numbers wrap at every step, both in doubling and in adding up, and it makes no difference
to the word of the sum.
-/

namespace MarmosetLang

/-- Where the characters of a text are known, it need not be decoded to be parsed. -/
theorem Grammar.parseText_eq_of_toList_eq {text : String} {letters : List Char}
    (letters_eq : text.toList = letters) :
    parseText text = parse ⟨Token.scanFrom 0 letters, Token.endOf letters.length,
      fun _ => Token.kind_ne_eof_of_mem_scanFrom, rfl⟩ := by
  rw [← letters_eq, String.length_toList]
  rfl

namespace RowFunctions

open Evaluation

/-- A value is a number. -/
def IsNumber (value : Value) (number : Int) : Prop :=
  ∃ serial, value = .integer serial number

/-- A value is the double of every number that another value is. -/
def Doubles (element value : Value) : Prop :=
  ∀ number, IsNumber element number → IsNumber value (Word.wrap (number * 2))

theorem IsNumber.isSignal_eq {value : Value} {number : Int} (is_number : IsNumber value number) :
    value.isSignal = false := by
  obtain ⟨serial, rfl⟩ := is_number
  rfl

theorem IsNumber.eq {value : Value} {number other : Int} (is_number : IsNumber value number)
    (is_other : IsNumber value other) : number = other := by
  obtain ⟨serial, rfl⟩ := is_number
  obtain ⟨_, ⟨⟩⟩ := is_other
  rfl

/-! ## The functions -/

section

variable {store : Store} {home : ScopeId} {serial : Nat}

theorem calls_double {value : Value} {number : Int} (opened : home < store.scopes.size)
    (is_number : IsNumber value number) :
    Calls (.function serial ["x"] doubleBody home) [value] store fun answer later =>
      IsNumber answer (Word.wrap (number * 2)) ∧ store.Spares later := by
  obtain ⟨value_serial, rfl⟩ := is_number
  refine calls_function_of_plain opened (by decide) fun scope inside enters => ?_
  refine settles_block_expression (evaluates_infixed ?_)
  refine evaluates_name (enters.lookup_here rfl) ⟨rfl, evaluates_integer ⟨rfl, rfl, rfl, ?_⟩⟩
  exact ⟨⟨_, rfl⟩, enters.spares.fresh.fresh⟩

theorem calls_add {value other : Value} {total number : Int} (opened : home < store.scopes.size)
    (is_total : IsNumber value total) (is_number : IsNumber other number) :
    Calls (.function serial ["initial", "el"] addBody home) [value, other] store
      fun answer later => IsNumber answer (Word.wrap (total + number)) ∧ store.Spares later := by
  obtain ⟨value_serial, rfl⟩ := is_total
  obtain ⟨other_serial, rfl⟩ := is_number
  refine calls_function_of_plain opened (by decide) fun scope inside enters => ?_
  refine settles_block_expression (evaluates_infixed ?_)
  refine evaluates_name (enters.lookup_here rfl) ⟨rfl, ?_⟩
  refine evaluates_name (enters.lookup_here rfl) ⟨rfl, rfl, rfl, ?_⟩
  exact ⟨⟨_, rfl⟩, enters.spares.fresh⟩

theorem calls_sum {row reduce_serial : Nat} {elements : List Value} {numbers : List Int}
    (opened : home < store.scopes.size) (builtins : store.LeavesBuiltins home)
    (bound : store.lookup "reduce" home =
      some (.function reduce_serial ["arr", "initial", "f"] reduceBody home))
    (are_numbers : List.Forall₂ IsNumber elements numbers) :
    Calls (.function serial ["arr"] sumBody home) [.array row elements] store fun value later =>
      IsNumber value (Word.wrap numbers.sum) ∧ store.Spares later := by
  -- The word of the sum of the numbers passed is what the reduction has come to.
  let Holds (rest : List Value) (value : Value) : Prop := ∃ passed others,
    numbers = passed ++ others ∧ List.Forall₂ IsNumber rest others ∧
      IsNumber value (Word.wrap passed.sum)
  refine calls_function_of_plain opened (by decide) fun scope inside enters => ?_
  have reduce_bound := (enters.lookup_around rfl).trans bound
  refine settles_block_expression (evaluates_call (evaluates_name reduce_bound ⟨rfl, ?_⟩))
  refine settles_collect_cons (evaluates_name (enters.lookup_here rfl) ⟨rfl, ?_⟩)
  refine settles_collect_cons (evaluates_integer ⟨rfl, ?_⟩)
  refine settles_collect_cons (evaluates_function ⟨rfl, settles_collect_nil (Settles.deepen ?_)⟩)
  have spares := enters.spares.fresh.fresh
  refine (calls_reduce Holds (spares.lt_size opened)
    (fun builtin => (spares.lookup_eq opened _).trans (builtins builtin)) rfl rfl ?_
    ⟨[], numbers, rfl, are_numbers, _, rfl⟩).imp ?_
  · rintro first rest result ⟨passed, others, numbers_eq, are_numbers, is_total⟩
    obtain ⟨number, others, is_number, others_are_numbers, rfl⟩ :=
      List.forall₂_cons_left_iff.mp are_numbers
    refine ⟨is_number.isSignal_eq, fun later spared => ?_⟩
    refine (calls_add (spared.lt_size enters.opened) is_total is_number).imp ?_
    rintro value final ⟨is_sum, spares_final⟩
    refine ⟨is_sum.isSignal_eq, ⟨passed ++ [number], others, ?_, others_are_numbers, ?_⟩,
      spares_final⟩
    · rw [numbers_eq, List.append_assoc, List.singleton_append]
    · rwa [List.sum_append, List.sum_singleton, ← Word.wrap_wrap_add]
  · rintro value later ⟨plain, ⟨passed, others, numbers_eq, are_numbers, is_total⟩, spared⟩
    rw [List.forall₂_nil_left_iff.mp are_numbers, List.append_nil] at numbers_eq
    rw [numbers_eq]
    exact ⟨plain, plain, is_total, spares.trans spared⟩

end

/-! ## The program -/

set_option maxRecDepth 100000 in
theorem parseText_source : Grammar.parseText source = .ok ⟨library, [], 0⟩ :=
  (Grammar.parseText_eq_of_toList_eq String.toList_ofList).trans (by with_unfolding_all rfl)

theorem parseText_sumOfDoubled :
    Grammar.parseText "sum(map(xs, double))" = .ok ⟨sumOfDoubled, [], 0⟩ :=
  (Grammar.parseText_eq_of_toList_eq String.toList_ofList).trans (by with_unfolding_all rfl)

/-- What the program binds in its scope, with the serial numbers that it gives out. -/
def bindings (serial : Nat) (home : ScopeId) : List (String × Value) :=
  [("map", .function serial ["arr", "f"] mapBody home),
    ("reduce", .function (serial + 1) ["arr", "initial", "f"] reduceBody home),
    ("sum", .function (serial + 2) ["arr"] sumBody home),
    ("double", .function (serial + 3) ["x"] doubleBody home)]

theorem settles_library (store : Store) :
    Settles (fun depth => program (evaluate depth) store.scopes.size library)
      (store.enclose none).2 fun value later => value = none ∧ store.Spares later ∧
        later.scopes[store.scopes.size]? =
          some ⟨none, bindings store.made store.scopes.size⟩ := by
  have least := Nat.le_refl store.scopes.size
  have found : (store.enclose none).2.scopes[store.scopes.size]? = some ⟨none, []⟩ := by
    rw [Store.getElem?_enclose, if_pos rfl]
  have bound {earlier : Store} {known : List (String × Value)}
      (found : earlier.scopes[store.scopes.size]? = some ⟨none, known⟩) (name : String)
      (value : Value) :
      (earlier.fresh.2.bind store.scopes.size name value).scopes[store.scopes.size]? =
        some ⟨none, Scope.put name value known⟩ := by
    rw [Store.getElem?_bind, if_pos rfl]
    exact congrArg (Option.map _) found
  refine settles_program ?_
  refine settles_statements_binding (evaluates_function ⟨rfl, ?_⟩)
  refine settles_statements_binding (evaluates_function ⟨rfl, ?_⟩)
  refine settles_statements_binding (evaluates_function ⟨rfl, ?_⟩)
  refine settles_statements_binding (evaluates_function ⟨rfl, settles_statements_nil ?_⟩)
  refine ⟨rfl, ?_, bound (bound (bound (bound found _ _) _ _) _ _) _ _⟩
  exact (((store.spares_enclose none).fresh.bind least _ _ |>.fresh.bind least _ _).fresh.bind
    least _ _).fresh.bind least _ _

theorem forall₂_isNumber_of_doubles {elements values : List Value} {numbers : List Int}
    (doubled : List.Forall₂ Doubles elements values)
    (are_numbers : List.Forall₂ IsNumber elements numbers) :
    List.Forall₂ IsNumber values (numbers.map fun number => Word.wrap (number * 2)) := by
  induction doubled generalizing numbers with
  | nil =>
      cases are_numbers
      exact .nil
  | cons first _ ih =>
      cases are_numbers with
      | cons is_number others => exact .cons (first _ is_number) (ih others)

theorem wrap_sum_doubled (numbers : List Int) :
    Word.wrap (numbers.map fun number => Word.wrap (number * 2)).sum =
      Word.wrap (2 * numbers.sum) := by
  induction numbers with
  | nil => rfl
  | cons number numbers ih =>
      rw [List.map_cons, List.sum_cons, List.sum_cons, Word.wrap_wrap_add, ← Word.wrap_add_wrap,
        ih, Word.wrap_add_wrap, Int.mul_add, Int.mul_comm]

theorem settles_sumOfDoubled {store : Store} {home : ScopeId} {serial row : Nat}
    {elements : List Value} {numbers : List Int}
    (found : store.scopes[home]? =
      some ⟨none, bindings serial home ++ [("xs", .array row elements)]⟩)
    (are_numbers : List.Forall₂ IsNumber elements numbers) :
    Settles (fun depth => program (evaluate depth) home sumOfDoubled) store fun value later =>
      (∃ sum_serial, value = some (.integer sum_serial (Word.wrap (2 * numbers.sum)))) ∧
        store.Spares later := by
  have opened : home < store.scopes.size := (Array.getElem?_eq_some_iff.mp found).1
  have seen (name : String) : store.lookup name home =
      Scope.valueOf? name (bindings serial home ++ [("xs", .array row elements)]) :=
    (Store.lookup_of_found found name).trans Option.or_none
  have builtins : store.LeavesBuiltins home := fun builtin => by
    rw [seen]
    cases builtin <;> rfl
  have each : ∀ element ∈ elements, ∃ number, IsNumber element number :=
    ((List.forall₂_and_left elements numbers).mp
      (are_numbers.imp fun _ number is_number => ⟨⟨number, is_number⟩, is_number⟩)).1
  refine settles_program (settles_statements_expression ?_)
  refine evaluates_call (evaluates_name (seen "sum") ⟨rfl, ?_⟩)
  refine settles_collect_cons (evaluates_call (evaluates_name (seen "map") ⟨rfl, ?_⟩))
  refine settles_collect_cons (evaluates_name (seen "xs") ⟨rfl, ?_⟩)
  refine settles_collect_cons (evaluates_name (seen "double") ⟨rfl, settles_collect_nil ?_⟩)
  refine ((calls_map Doubles opened builtins rfl fun element member => ?_).imp ?_).deepen
  · obtain ⟨number, is_number⟩ := each element member
    refine ⟨is_number.isSignal_eq, fun later spares => ?_⟩
    refine (calls_double (spares.lt_size opened) is_number).imp ?_
    rintro value final ⟨is_double, spared⟩
    exact ⟨is_double.isSignal_eq, fun other is_other => is_number.eq is_other ▸ is_double, spared⟩
  · rintro value middle ⟨copy, values, rfl, doubled, spares⟩
    have reduce_bound := (spares.lookup_eq opened "reduce").trans (seen "reduce")
    have builtins_left : middle.LeavesBuiltins home := fun builtin =>
      (spares.lookup_eq opened _).trans (builtins builtin)
    refine ⟨rfl, settles_collect_nil (Settles.deepen ?_)⟩
    refine (calls_sum (spares.lt_size opened) builtins_left reduce_bound
      (forall₂_isNumber_of_doubles doubled are_numbers)).imp ?_
    rintro _ later ⟨⟨sum_serial, rfl⟩, spared⟩
    rw [wrap_sum_doubled]
    exact ⟨rfl, settles_statements_nil ⟨⟨sum_serial, rfl⟩, spares.trans spared⟩⟩

/-- With the functions bound in a scope of its own, and with them any row of numbers, the sum of the
doubled elements comes to the word of twice the sum of the numbers, given enough levels.  Nothing is
printed, the row is as it was, and nothing more is bound. -/
theorem sum_of_doubled (store : Store) (row : Nat) (numbers : List (Nat × Int)) :
    let home := (store.enclose none).1
    let xs := Value.array row (numbers.map fun (serial, number) => .integer serial number)
    Grammar.parseText source = .ok ⟨library, [], 0⟩ ∧
      Grammar.parseText "sum(map(xs, double))" = .ok ⟨sumOfDoubled, [], 0⟩ ∧
      ∃ loaded serial later enough,
        (∀ depth, enough ≤ depth →
          program (evaluate depth) home library (store.enclose none).2 =
            (.finished none, loaded)) ∧
        (∀ depth, enough ≤ depth →
          program (evaluate depth) home sumOfDoubled (loaded.bind home "xs" xs) =
            (.finished (some (.integer serial (Word.wrap (2 * (numbers.map Prod.snd).sum)))),
              later)) ∧
        later.output = store.output ∧
        later.lookup "xs" home = some xs ∧
        later.scopes[home]? = (loaded.bind home "xs" xs).scopes[home]? := by
  intro home xs
  obtain ⟨_, loaded, ⟨rfl, spares, found⟩, enough, load_eq⟩ := settles_library store
  have bound : (loaded.bind home "xs" xs).scopes[home]? =
      some ⟨none, bindings store.made home ++ [("xs", xs)]⟩ := by
    rw [Store.getElem?_bind, if_pos rfl]
    exact congrArg (Option.map _) found
  have are_numbers : List.Forall₂ IsNumber
      (numbers.map fun (serial, number) => .integer serial number) (numbers.map Prod.snd) := by
    rw [List.forall₂_map_left_iff, List.forall₂_map_right_iff, List.forall₂_same]
    exact fun entry _ => ⟨entry.1, rfl⟩
  obtain ⟨_, later, ⟨⟨serial, rfl⟩, spared⟩, more, run_eq⟩ :=
    settles_sumOfDoubled bound are_numbers
  have here := spared.scope_eq bound
  refine ⟨parseText_source, parseText_sumOfDoubled, loaded, serial, later, max enough more,
    fun depth le => load_eq depth (Nat.max_le.mp le).1,
    fun depth le => run_eq depth (Nat.max_le.mp le).2, ?_, ?_, here.trans bound.symm⟩
  · exact spared.output_eq.trans spares.output_eq
  · exact Store.lookup_of_found here "xs"

end RowFunctions
end MarmosetLang
