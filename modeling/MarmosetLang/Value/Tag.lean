/-!
# Tags

Every value has a tag, which says what sort of value it is.  Messages name values by their tags.
-/

namespace MarmosetLang

/-- A sort of value. -/
inductive Tag where
  /-- A whole number. -/
  | integer
  /-- A truth value. -/
  | boolean
  /-- The absence of a value. -/
  | null
  /-- A text. -/
  | string
  /-- A row of values. -/
  | array
  /-- A collection of values under keys. -/
  | hash
  /-- A function of the program. -/
  | function
  /-- A builtin function. -/
  | builtin
  /-- A value on its way out of a function. -/
  | returned
  /-- A mistake on its way out of the program. -/
  | error
deriving DecidableEq, Repr

/-- The name by which messages call a sort of value. -/
def Tag.name : Tag → String
  | integer => "INTEGER"
  | boolean => "BOOLEAN"
  | null => "NULL"
  | string => "STRING"
  | array => "ARRAY"
  | hash => "HASH"
  | function => "FUNCTION"
  | builtin => "BUILTIN"
  | returned => "RETURN_VALUE"
  | error => "ERROR"

end MarmosetLang
