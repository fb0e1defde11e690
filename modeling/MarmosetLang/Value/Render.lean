import MarmosetLang.Text.Quoted
import MarmosetLang.Tree.Render
import MarmosetLang.Value

/-!
# Display

Values are displayed by their content, and containers by the content of their elements, however
deeply they are nested.  Programmers may also see the simple values in detail, between angle
brackets and with texts quoted.
-/

namespace MarmosetLang
namespace Value

mutual

/-- Write the content of a value. -/
def render : Value → String
  | integer _ number => Decimal.ofInt number
  | boolean truth => if truth then "true" else "false"
  | null => "null"
  | string _ text => text
  | array _ elements => "[" ++ ", ".intercalate (renderEach elements) ++ "]"
  | hash _ entries => "\x7b" ++ ", ".intercalate (renderEntries entries) ++ "\x7d"
  | function _ parameters body _ =>
      "fn(" ++ ", ".intercalate parameters ++ ") \x7b\n" ++ body.render ++ "\n\x7d"
  | builtin _ => "builtin function"
  | returned _ value => render value
  | error _ mistake => "ERROR: " ++ mistake.message

/-- Write the content of each value. -/
def renderEach : List Value → List String
  | [] => []
  | first :: rest => render first :: renderEach rest

/-- Write each key and its value with a colon between them. -/
def renderEntries : List (Entry Value) → List String
  | [] => []
  | ⟨_, key, value⟩ :: rest => (render key ++ ": " ++ render value) :: renderEntries rest

end

/-- Write a simple value in detail.  Containers, functions and returned values have no such form. -/
def detail? : Value → Option String
  | integer _ number => some ("<Integer " ++ Decimal.ofInt number ++ ">")
  | boolean truth => some ("<Boolean " ++ (boolean truth).render ++ ">")
  | null => some "<Null>"
  | string _ text => some ("<String " ++ Quoted.encode text ++ ">")
  | builtin which => some ("<Builtin " ++ which.name ++ ">")
  | error _ mistake => some ("<Error " ++ Quoted.encode mistake.message ++ ">")
  | _ => none

end Value
end MarmosetLang
