import MarmosetLang.Builtin.Apply
import MarmosetLang.Operation

/-!
# Properties of all values in a value

What is said of every value in a value is said of the value itself, of its elements, keys and
entries, and of what it wraps.  Operators and builtin functions take values apart and put them
together, and make numbers, truth values, texts and mistakes of their own, so a property that all of
those have is one that they keep.
-/

namespace MarmosetLang

namespace Value

/-- Every value in a value has a property. -/
inductive Every (Holds : Value → Prop) : Value → Prop where
  | integer {serial : Nat} {number : Int} (here : Holds (.integer serial number)) :
      Every Holds (.integer serial number)
  | boolean {truth : Bool} (here : Holds (.boolean truth)) : Every Holds (.boolean truth)
  | null (here : Holds .null) : Every Holds .null
  | string {serial : Nat} {text : String} (here : Holds (.string serial text)) :
      Every Holds (.string serial text)
  | array {serial : Nat} {elements : List Value} (here : Holds (.array serial elements))
      (inside : ∀ element ∈ elements, Every Holds element) : Every Holds (.array serial elements)
  | hash {serial : Nat} {entries : List (Entry Value)} (here : Holds (.hash serial entries))
      (keys : ∀ entry ∈ entries, Every Holds entry.key)
      (values : ∀ entry ∈ entries, Every Holds entry.value) : Every Holds (.hash serial entries)
  | function {serial : Nat} {parameters : List String} {body : Block} {scope : ScopeId}
      (here : Holds (.function serial parameters body scope)) :
      Every Holds (.function serial parameters body scope)
  | builtin {which : Builtin} (here : Holds (.builtin which)) : Every Holds (.builtin which)
  | returned {serial : Nat} {value : Value} (here : Holds (.returned serial value))
      (inside : Every Holds value) : Every Holds (.returned serial value)
  | error {serial : Nat} {mistake : Mistake} (here : Holds (.error serial mistake)) :
      Every Holds (.error serial mistake)

namespace Every

variable {Holds More : Value → Prop} {value : Value}

theorem mono (every : value.Every Holds) (weaker : ∀ value, Holds value → More value) :
    value.Every More := by
  induction every with
  | integer here => exact .integer (weaker _ here)
  | boolean here => exact .boolean (weaker _ here)
  | null here => exact .null (weaker _ here)
  | string here => exact .string (weaker _ here)
  | array here _ inside => exact .array (weaker _ here) inside
  | hash here _ _ keys values => exact .hash (weaker _ here) keys values
  | function here => exact .function (weaker _ here)
  | builtin here => exact .builtin (weaker _ here)
  | returned here _ inside => exact .returned (weaker _ here) inside
  | error here => exact .error (weaker _ here)

theorem here (every : value.Every Holds) : Holds value := by
  cases every <;> assumption

theorem unwrap (every : value.Every Holds) : value.unwrap.Every Holds := by
  cases value with
  | returned =>
      cases every with
      | returned _ inside => exact inside
  | _ => exact every

end Every

/-- A property of all that operators and builtin functions can make on their own. -/
structure Closed (Holds : Value → Prop) : Prop where
  wrapped : ∀ serial number, Holds (.integer serial (Word.wrap number))
  boolean : ∀ truth, Holds (.boolean truth)
  null : Holds .null
  string : ∀ serial text, Holds (.string serial text)
  array : ∀ serial elements, Holds (.array serial elements)
  builtin : ∀ which, Holds (.builtin which)
  returned : ∀ serial value, Holds (.returned serial value)
  error : ∀ serial mistake, Holds (.error serial mistake)

end Value

theorem Dictionary.forall_mem_insert {α : Type} {Holds : Entry α → Prop} {entries : List (Entry α)}
    {entry : Entry α} (all : ∀ old ∈ entries, Holds old) (new : Holds entry) :
    ∀ old ∈ Dictionary.insert entries entry, Holds old := by
  induction entries with
  | nil => simpa [Dictionary.insert] using new
  | cons first rest ih =>
      rw [List.forall_mem_cons] at all
      unfold Dictionary.insert
      split
      · exact List.forall_mem_cons.mpr ⟨new, all.2⟩
      · exact List.forall_mem_cons.mpr ⟨all.1, ih all.2⟩

open Value

variable {Holds : Value → Prop}

/-! ## Operations -/

namespace Operation

theorem forall_elementAt {elements : List Value} (null : Holds .null)
    (each : ∀ element ∈ elements, Holds element) (distance : Int) :
    Holds (elementAt elements distance) := by
  cases distance with
  | ofNat distance =>
      change Holds (elements.getD distance .null)
      rw [List.getD_eq_getElem?_getD]
      cases found : elements[distance]? with
      | none => exact null
      | some element => exact each element (List.mem_of_getElem? found)
  | negSucc distance => exact null

theorem forall_valueAt {entries : List (Entry Value)} (null : Holds .null)
    (each : ∀ entry ∈ entries, Holds entry.value) (slot : Slot) : Holds (valueAt entries slot) := by
  unfold valueAt
  split
  · rename_i entry found
    exact each entry (List.mem_of_find?_eq_some found)
  · exact null

variable (closed : Closed Holds)
include closed

theorem every_applyPrefix (serial : Nat) (operator : String) (operand : Value) :
    (applyPrefix serial operator operand).Every Holds := by
  unfold applyPrefix
  split
  · exact .boolean (closed.boolean _)
  · split
    · cases operand with
      | integer => exact .integer (closed.wrapped _ _)
      | _ => exact .error (closed.error _ _)
    · exact .error (closed.error _ _)

theorem every_applyIntegers (serial : Nat) (operator : String) (left right : Int) :
    (applyIntegers serial operator left right).Every Holds := by
  unfold applyIntegers
  split
  case h_8 =>
    split
    · exact .error (closed.error _ _)
    · exact .integer (closed.wrapped _ _)
  case h_9 => exact .error (closed.error _ _)
  all_goals first | exact .boolean (closed.boolean _) | exact .integer (closed.wrapped _ _)

theorem every_applyStrings (serial : Nat) (operator : String) (left right : String) :
    (applyStrings serial operator left right).Every Holds := by
  unfold applyStrings
  split
  case h_6 => exact .error (closed.error _ _)
  all_goals first | exact .boolean (closed.boolean _) | exact .string (closed.string _ _)

theorem every_applyOthers (serial : Nat) (operator : String) (left right : Value) :
    (applyOthers serial operator left right).Every Holds := by
  unfold applyOthers
  repeat' split
  all_goals first | exact .boolean (closed.boolean _) | exact .error (closed.error _ _)

theorem every_applyInfix (serial : Nat) (operator : String) (left right : Value) :
    (applyInfix serial operator left right).Every Holds := by
  unfold applyInfix
  split
  · exact every_applyIntegers closed _ _ _ _
  · exact every_applyStrings closed _ _ _ _
  · exact every_applyOthers closed _ _ _ _

theorem every_select (serial : Nat) {container : Value} (every : container.Every Holds)
    (position : Value) : (select serial container position).Every Holds := by
  have null : Value.null.Every Holds := .null closed.null
  unfold select
  split
  · cases every with
    | array _ inside => exact forall_elementAt null inside _
  · cases every with
    | hash _ _ values =>
        split
        · exact forall_valueAt null values _
        · exact .error (closed.error _ _)
  · exact .error (closed.error _ _)

end Operation

/-! ## Builtin functions -/

namespace Builtin

theorem forall_headD {elements : List Value} (null : Holds .null)
    (each : ∀ element ∈ elements, Holds element) : Holds (elements.headD .null) := by
  cases elements with
  | nil => exact null
  | cons first rest => exact each first List.mem_cons_self

theorem forall_getLastD {elements : List Value} (null : Holds .null)
    (each : ∀ element ∈ elements, Holds element) : Holds (elements.getLastD .null) := by
  rw [List.getLastD_eq_getLast?]
  cases found : elements.getLast? with
  | none => exact null
  | some last => exact each last (List.mem_of_getLast? found)

variable (closed : Closed Holds)
include closed

theorem every_onArray (serial : Nat) (builtin : Builtin) {argument : Value}
    {operation : List Value → Value} (every : argument.Every Holds)
    (keeps : ∀ elements : List Value, (∀ element ∈ elements, element.Every Holds) →
      (operation elements).Every Holds) :
    (onArray serial builtin argument operation).Every Holds := by
  cases every with
  | array _ inside => exact keeps _ inside
  | _ => exact .error (closed.error _ _)

theorem every_withoutFirst (serial : Nat) {elements : List Value}
    (each : ∀ element ∈ elements, element.Every Holds) :
    (withoutFirst serial elements).Every Holds := by
  cases elements with
  | nil => exact .null closed.null
  | cons first rest => exact .array (closed.array _ _) (List.forall_mem_cons.mp each).2

theorem every_length (integer : ∀ serial number, Holds (.integer serial number)) (serial : Nat)
    (argument : Value) : (length serial argument).Every Holds := by
  cases argument with
  | string | array => exact .integer (integer _ _)
  | _ => exact .error (closed.error _ _)

/-- Builtin functions keep a property if the lengths that they find have it. -/
theorem every_result (serial : Nat) (builtin : Builtin) {arguments : List Value}
    (each : ∀ argument ∈ arguments, argument.Every Holds)
    (length : ∀ argument, builtin = len → arguments = [argument] →
      (length serial argument).Every Holds) :
    (result serial builtin arguments).Every Holds := by
  have null : Value.null.Every Holds := .null closed.null
  unfold result
  split
  · exact length _ rfl rfl
  · exact every_onArray closed _ _ (each _ List.mem_cons_self) fun _ => forall_headD null
  · exact every_onArray closed _ _ (each _ List.mem_cons_self) fun _ => forall_getLastD null
  · exact every_onArray closed _ _ (each _ List.mem_cons_self) fun _ =>
      every_withoutFirst closed _
  · rename_i argument element
    refine every_onArray closed _ _ (each _ List.mem_cons_self) fun elements inside => ?_
    refine .array (closed.array _ _) (List.forall_mem_append.mpr ⟨inside, ?_⟩)
    exact List.forall_mem_singleton.mpr (each element (List.mem_cons_of_mem _ List.mem_cons_self))
  · exact null
  · exact .error (closed.error _ _)
  · exact .error (closed.error _ _)

end Builtin

end MarmosetLang
