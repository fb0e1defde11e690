import MarmosetLang.Evaluation
import MarmosetLang.Proofs.Value.Every

/-!
# Plain values

A value is plain if neither it nor anything inside it is a signal.  Operations on plain values come
to plain values or mistakes, and a store is clean if everything bound in it is plain.
-/

namespace MarmosetLang

namespace Value

/-- A value without a signal anywhere in it. -/
inductive IsPlain : Value → Prop where
  | integer {serial : Nat} {number : Int} : IsPlain (.integer serial number)
  | boolean {truth : Bool} : IsPlain (.boolean truth)
  | null : IsPlain .null
  | string {serial : Nat} {text : String} : IsPlain (.string serial text)
  | array {serial : Nat} {elements : List Value}
      (plain : ∀ element ∈ elements, IsPlain element) : IsPlain (.array serial elements)
  | hash {serial : Nat} {entries : List (Entry Value)}
      (plain_keys : ∀ entry ∈ entries, IsPlain entry.key)
      (plain_values : ∀ entry ∈ entries, IsPlain entry.value) : IsPlain (.hash serial entries)
  | function {serial : Nat} {parameters : List String} {body : Block} {scope : ScopeId} :
      IsPlain (.function serial parameters body scope)
  | builtin {which : Builtin} : IsPlain (.builtin which)

/-- A plain value or a mistake. -/
inductive IsResult : Value → Prop where
  | plain {value : Value} (plain : value.IsPlain) : IsResult value
  | error {serial : Nat} {mistake : Mistake} : IsResult (.error serial mistake)

/-- A plain value, a mistake, or a plain value on its way out of a function. -/
inductive IsAnswer : Value → Prop where
  | result {value : Value} (result : value.IsResult) : IsAnswer value
  | returned {serial : Nat} {value : Value} (plain : value.IsPlain) :
      IsAnswer (.returned serial value)

theorem IsPlain.isSignal_eq_false {value : Value} (plain : value.IsPlain) :
    value.isSignal = false := by
  cases plain <;> rfl

theorem IsPlain.isAnswer {value : Value} (plain : value.IsPlain) : value.IsAnswer :=
  .result (.plain plain)

/-- An answer that is no signal is plain. -/
theorem IsAnswer.isPlain {value : Value} (answer : value.IsAnswer)
    (no_signal : value.isSignal = false) : value.IsPlain := by
  cases answer with
  | result result =>
      cases result with
      | plain plain => exact plain
      | error => exact nomatch no_signal
  | returned plain => exact nomatch no_signal

/-- What leaves a function is no longer on its way out. -/
theorem IsAnswer.isResult_unwrap {value : Value} (answer : value.IsAnswer) :
    value.unwrap.IsResult := by
  cases answer with
  | result result =>
      cases result with
      | plain plain =>
          have unwrap_eq : value.unwrap = value := by cases plain <;> rfl
          rw [unwrap_eq]
          exact .plain plain
      | error => exact .error
  | returned plain => exact .plain plain

end Value

/-! ## Operations -/

namespace Operation

open Value

theorem isResult_applyPrefix (serial : Nat) (operator : String) (operand : Value) :
    (applyPrefix serial operator operand).IsResult := by
  unfold applyPrefix
  split
  · exact .plain .boolean
  · split
    · cases operand with
      | integer => exact .plain .integer
      | _ => exact .error
    · exact .error

theorem isResult_applyIntegers (serial : Nat) (operator : String) (left right : Int) :
    (applyIntegers serial operator left right).IsResult := by
  unfold applyIntegers
  split
  case h_8 =>
    split
    · exact .error
    · exact .plain .integer
  case h_9 => exact .error
  all_goals first | exact .plain .boolean | exact .plain .integer

theorem isResult_applyStrings (serial : Nat) (operator : String) (left right : String) :
    (applyStrings serial operator left right).IsResult := by
  unfold applyStrings
  split
  case h_6 => exact .error
  all_goals first | exact .plain .boolean | exact .plain .string

theorem isResult_applyOthers (serial : Nat) (operator : String) (left right : Value) :
    (applyOthers serial operator left right).IsResult := by
  unfold applyOthers
  split
  · exact .plain .boolean
  · split
    · exact .plain .boolean
    · split
      · exact .error
      · exact .error

theorem isResult_applyInfix (serial : Nat) (operator : String) (left right : Value) :
    (applyInfix serial operator left right).IsResult := by
  unfold applyInfix
  split
  · exact isResult_applyIntegers _ _ _ _
  · exact isResult_applyStrings _ _ _ _
  · exact isResult_applyOthers _ _ _ _

theorem isResult_select {container : Value} (serial : Nat) (plain : container.IsPlain)
    (position : Value) : (select serial container position).IsResult := by
  unfold select
  split
  · cases plain with
    | array plain => exact .plain (forall_elementAt .null plain _)
  · cases plain with
    | hash plain_keys plain_values =>
        split
        · exact .plain (forall_valueAt .null plain_values _)
        · exact .error
  · exact .error

end Operation

namespace Builtin

open Value

theorem isResult_onArray {argument : Value} {operation : List Value → Value} (serial : Nat)
    (builtin : Builtin) (plain : argument.IsPlain)
    (keeps : ∀ elements : List Value, (∀ element ∈ elements, element.IsPlain) →
      (operation elements).IsPlain) :
    (onArray serial builtin argument operation).IsResult := by
  cases plain with
  | array plain => exact .plain (keeps _ plain)
  | _ => exact .error

theorem isPlain_withoutFirst {elements : List Value} (serial : Nat)
    (plain : ∀ element ∈ elements, element.IsPlain) : (withoutFirst serial elements).IsPlain := by
  cases elements with
  | nil => exact .null
  | cons first rest => exact .array (List.forall_mem_cons.mp plain).2

theorem isResult_length (serial : Nat) (argument : Value) :
    (length serial argument).IsResult := by
  cases argument with
  | string | array => exact .plain .integer
  | _ => exact .error

/-- Builtin functions make nothing but plain values and mistakes of plain arguments. -/
theorem isResult_result (serial : Nat) (builtin : Builtin) {arguments : List Value}
    (plain : ∀ argument ∈ arguments, argument.IsPlain) :
    (result serial builtin arguments).IsResult := by
  unfold result
  split
  · exact isResult_length _ _
  · exact isResult_onArray _ _ (plain _ List.mem_cons_self) fun _ => forall_headD .null
  · exact isResult_onArray _ _ (plain _ List.mem_cons_self) fun _ => forall_getLastD .null
  · exact isResult_onArray _ _ (plain _ List.mem_cons_self) fun _ => isPlain_withoutFirst _
  · rename_i argument element
    refine isResult_onArray _ _ (plain _ List.mem_cons_self) fun elements plain_elements => ?_
    refine .array (List.forall_mem_append.mpr ⟨plain_elements, ?_⟩)
    exact List.forall_mem_singleton.mpr (plain element (List.mem_cons_of_mem _ List.mem_cons_self))
  · exact .plain .null
  · exact .error
  · exact .error

end Builtin

/-! ## Stores -/

/-- A store in which everything bound is plain. -/
def Store.IsClean (store : Store) : Prop :=
  ∀ (place : ScopeId) (scope : Scope), store.scopes[place]? = some scope →
    ∀ binding ∈ scope.bindings, binding.2.IsPlain

theorem Store.isClean_empty : Store.empty.IsClean := by
  intro place scope found
  simp [Store.empty] at found

theorem Scope.forall_mem_put {bindings : List (String × Value)} (name : String) {value : Value}
    (plain : ∀ binding ∈ bindings, binding.2.IsPlain) (new : value.IsPlain) :
    ∀ binding ∈ put name value bindings, binding.2.IsPlain := by
  induction bindings with
  | nil => simpa [put] using new
  | cons first rest ih =>
      rw [List.forall_mem_cons] at plain
      unfold put
      split
      · exact List.forall_mem_cons.mpr ⟨new, plain.2⟩
      · exact List.forall_mem_cons.mpr ⟨plain.1, ih plain.2⟩

namespace Store.IsClean

variable {store : Store}

theorem isPlain_of_lookup (clean : store.IsClean) {name : String} {scope : ScopeId} {value : Value}
    (found : store.lookup name scope = some value) : value.IsPlain := by
  fun_induction Store.lookup store name scope with
  | case1 => exact nomatch found
  | case2 scope here here_eq value bound =>
      cases found
      exact clean scope here here_eq _ (Scope.mem_of_valueOf? bound)
  | case3 => exact nomatch found
  | case4 scope here here_eq unbound outer outer_eq earlier ih => exact ih found
  | case5 => exact nomatch found

theorem bind (clean : store.IsClean) (scope : ScopeId) (name : String) {value : Value}
    (plain : value.IsPlain) : (store.bind scope name value).IsClean := by
  intro place found found_eq
  simp only [Store.bind, Array.getElem?_modify] at found_eq
  split at found_eq
  · obtain ⟨old, old_eq, rfl⟩ := Option.map_eq_some_iff.mp found_eq
    exact Scope.forall_mem_put name (clean place old old_eq) plain
  · exact clean place found found_eq

theorem enclose (clean : store.IsClean) (outer : Option ScopeId) :
    (store.enclose outer).2.IsClean := by
  intro place found found_eq
  simp only [Store.enclose, Array.getElem?_push] at found_eq
  split at found_eq
  · cases found_eq
    exact List.forall_mem_nil _
  · exact clean place found found_eq

theorem fresh (clean : store.IsClean) : store.fresh.2.IsClean :=
  clean

theorem print (clean : store.IsClean) (lines : List String) :
    (lines.foldl Store.print store).IsClean := by
  induction lines generalizing store with
  | nil => exact clean
  | cons first rest ih => exact ih clean

end Store.IsClean

end MarmosetLang
