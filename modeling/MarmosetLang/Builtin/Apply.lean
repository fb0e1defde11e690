import MarmosetLang.Value.Render

/-!
# Calling builtin functions

Builtin functions check the number and the sorts of their arguments, and answer a wrong call with a
mistake.  They never change an argument: what they return is an element of it or made anew.
-/

namespace MarmosetLang
namespace Builtin

/-- The length of a value. -/
def length (serial : Nat) : Value → Value
  | .string _ text => .integer serial text.utf8ByteSize
  | .array _ elements => .integer serial elements.length
  | argument => .error serial (.noLength argument.tag)

/-- Apply an operation on rows to an argument that has to be one. -/
def onArray (serial : Nat) (builtin : Builtin) (argument : Value)
    (operation : List Value → Value) : Value :=
  match argument with
  | .array _ elements => operation elements
  | argument => .error serial (.notArray builtin argument.tag)

/-- A row without its first element, or null if it has none. -/
def withoutFirst (serial : Nat) : List Value → Value
  | [] => .null
  | _ :: others => .array serial others

/-- The value that a builtin function returns, with a serial number for it if it has to be made. -/
def result (serial : Nat) (builtin : Builtin) (arguments : List Value) : Value :=
  match builtin, arguments with
  | len, [argument] => length serial argument
  | first, [argument] => onArray serial first argument (·.headD .null)
  | last, [argument] => onArray serial last argument (·.getLastD .null)
  | rest, [argument] => onArray serial rest argument (withoutFirst serial)
  | push, [argument, element] =>
      onArray serial push argument fun elements => .array serial (elements ++ [element])
  | print, _ => .null
  | push, arguments => .error serial (.wrongArity arguments.length 2)
  | _, arguments => .error serial (.wrongArity arguments.length 1)

/-- The lines that a builtin function prints. -/
def lines (builtin : Builtin) (arguments : List Value) : List String :=
  match builtin with
  | print => arguments.map Value.render
  | _ => []

end Builtin
end MarmosetLang
