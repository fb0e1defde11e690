import MarmosetLang.Number.Fingerprint
import MarmosetLang.Number.Word
import MarmosetLang.Tree
import MarmosetLang.Value.Dictionary
import MarmosetLang.Value.Mistake

/-!
# Values

What programs compute with.  Numbers, texts, arrays, hashes and functions are made anew by every
expression that yields them, and a serial number tells each of them from all others, equal in
content or not.  The truth values, null and the builtin functions exist once and need no number.

The text of a string is a sequence of Unicode scalar values: no surrogate stands in it alone, so
that it always has a form in UTF-8.  Arrays, hashes and returned values may be nested without bound.
-/

namespace MarmosetLang

/-- The place of a scope in the order of creation. -/
abbrev ScopeId := Nat

/-- A value. -/
inductive Value where
  /-- A whole number. -/
  | integer (serial : Nat) (number : Int)
  /-- A truth value. -/
  | boolean (truth : Bool)
  /-- The absence of a value. -/
  | null
  /-- A text. -/
  | string (serial : Nat) (text : String)
  /-- A row of values. -/
  | array (serial : Nat) (elements : List Value)
  /-- Values under keys. -/
  | hash (serial : Nat) (entries : List (Entry Value))
  /-- A function with the scope in which its literal stood. -/
  | function (serial : Nat) (parameters : List String) (body : Block) (scope : ScopeId)
  /-- A builtin function. -/
  | builtin (which : Builtin)
  /-- A value on its way out of a function. -/
  | returned (serial : Nat) (value : Value)
  /-- A mistake on its way out of the program. -/
  | error (serial : Nat) (mistake : Mistake)

namespace Value

/-- The sort of a value. -/
def tag : Value → Tag
  | integer _ _ => .integer
  | boolean _ => .boolean
  | null => .null
  | string _ _ => .string
  | array _ _ => .array
  | hash _ _ => .hash
  | function _ _ _ _ => .function
  | builtin _ => .builtin
  | returned _ _ => .returned
  | error _ _ => .error

/-- The serial number of a value, if it is of a sort that is made anew. -/
def serial? : Value → Option Nat
  | integer serial _ => some serial
  | boolean _ => none
  | null => none
  | string serial _ => some serial
  | array serial _ => some serial
  | hash serial _ => some serial
  | function serial _ _ _ => some serial
  | builtin _ => none
  | returned serial _ => some serial
  | error serial _ => some serial

/-- Whether two values are one and the same, and not only equal in content. -/
def same (left right : Value) : Bool :=
  match left, right with
  | boolean left, boolean right => left = right
  | null, null => true
  | builtin left, builtin right => left = right
  | left, right => left.tag = right.tag && left.serial?.isSome && left.serial? = right.serial?

/-- Everything counts as true except null and the false truth value. -/
def isTruthy : Value → Bool
  | null => false
  | boolean truth => truth
  | _ => true

/-- Whether a value has to travel up unexamined. -/
def isSignal : Value → Bool
  | returned _ _ => true
  | error _ _ => true
  | _ => false

/-- The slot of a value as a key, if it is of a sort that can be one. -/
def slot? : Value → Option Slot
  | integer _ number => some ⟨.integer, Word.unsigned number⟩
  | boolean truth => some ⟨.boolean, if truth then 1 else 0⟩
  | string _ text => some ⟨.string, Fingerprint.ofText text⟩
  | _ => none

/-- What a value comes to once it has left its function: the wrapping of a returned value falls. -/
def unwrap : Value → Value
  | returned _ value => value
  | value => value

end Value

end MarmosetLang
