import MarmosetLang.Value

/-!
# Operations

What operators and selections make of values.  Two numbers are compared and combined as words, two
texts are compared and joined, and otherwise equality asks whether both sides are one and the same
value.  An operation is given a serial number for the value that it may have to make.
-/

namespace MarmosetLang
namespace Operation

/-- Apply an operator that stands before its operand. -/
def applyPrefix (serial : Nat) (operator : String) (operand : Value) : Value :=
  if operator = "!" then
    .boolean (!operand.isTruthy)
  else if operator = "-" then
    match operand with
    | .integer _ number => .integer serial (Word.wrap (-number))
    | _ => .error serial (.unknownPrefix operator operand.tag)
  else
    .error serial (.unknownPrefix operator operand.tag)

/-- Apply an operator between two numbers. -/
def applyIntegers (serial : Nat) (operator : String) (left right : Int) : Value :=
  match operator with
  | "<" => .boolean (left < right)
  | ">" => .boolean (right < left)
  | "==" => .boolean (left = right)
  | "!=" => .boolean (left ≠ right)
  | "+" => .integer serial (Word.wrap (left + right))
  | "-" => .integer serial (Word.wrap (left - right))
  | "*" => .integer serial (Word.wrap (left * right))
  | "/" =>
      if right = 0 then
        .error serial .divisionByZero
      else
        .integer serial (Word.wrap (Word.quotient left right))
  | _ => .error serial (.unknownInfix operator .integer .integer)

/-- Apply an operator between two texts. -/
def applyStrings (serial : Nat) (operator : String) (left right : String) : Value :=
  match operator with
  | "<" => .boolean (left < right)
  | ">" => .boolean (right < left)
  | "==" => .boolean (left = right)
  | "!=" => .boolean (left ≠ right)
  | "+" => .string serial (left ++ right)
  | _ => .error serial (.unknownInfix operator .string .string)

/-- Apply an operator between two values that are neither both numbers nor both texts. -/
def applyOthers (serial : Nat) (operator : String) (left right : Value) : Value :=
  if operator = "==" then .boolean (left.same right)
  else if operator = "!=" then .boolean (!left.same right)
  else if left.tag = right.tag then .error serial (.unknownInfix operator left.tag right.tag)
  else .error serial (.mismatch operator left.tag right.tag)

/-- Apply an operator that stands between its operands. -/
def applyInfix (serial : Nat) (operator : String) (left right : Value) : Value :=
  match left, right with
  | .integer _ left, .integer _ right => applyIntegers serial operator left right
  | .string _ left, .string _ right => applyStrings serial operator left right
  | left, right => applyOthers serial operator left right

/-- Select an element of a row by its distance from the first one.  Outside there is null. -/
def elementAt (elements : List Value) (distance : Int) : Value :=
  match distance with
  | .ofNat distance => elements.getD distance .null
  | .negSucc _ => .null

/-- Select a value by its key.  Where the key is missing there is null. -/
def valueAt (entries : List (Entry Value)) (slot : Slot) : Value :=
  match Dictionary.find? entries slot with
  | some entry => entry.value
  | none => .null

/-- Select from a container. -/
def select (serial : Nat) (container position : Value) : Value :=
  match container, position with
  | .array _ elements, .integer _ distance => elementAt elements distance
  | .hash _ entries, position =>
      match position.slot? with
      | some slot => valueAt entries slot
      | none => .error serial (.unusableKey position.tag)
  | container, _ => .error serial (.notIndexable container.tag)

end Operation
end MarmosetLang
