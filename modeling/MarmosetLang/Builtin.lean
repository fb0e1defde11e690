/-!
# Builtin functions

The functions that every program may call without binding them.  They are looked up after all
scopes, so that a program can give their names another meaning.
-/

namespace MarmosetLang

/-- A builtin function. -/
inductive Builtin where
  /-- The length of a string in bytes, or of an array in elements. -/
  | len
  /-- The first element of an array. -/
  | first
  /-- The last element of an array. -/
  | last
  /-- An array without its first element. -/
  | rest
  /-- An array with one more element at its end. -/
  | push
  /-- Display each argument on a line of its own. -/
  | print
deriving DecidableEq, Repr

namespace Builtin

/-- The name by which programs call a builtin function. -/
def name : Builtin → String
  | len => "len"
  | first => "first"
  | last => "last"
  | rest => "rest"
  | push => "push"
  | print => "print"

/-- All builtin functions. -/
def all : List Builtin := [len, first, last, rest, push, print]

/-- The builtin function of a given name. -/
def ofName? (word : String) : Option Builtin :=
  all.find? (·.name = word)

theorem ofName?_name (builtin : Builtin) : ofName? builtin.name = some builtin := by
  cases builtin <;> decide

end Builtin

end MarmosetLang
