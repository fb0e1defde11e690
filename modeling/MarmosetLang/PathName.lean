/-!
# Path names

A path name is a list of names after a root that may be missing.  Empty names and names of one dot
say nothing and are dropped, while names of two dots stay: where they lead depends on the files.
-/

namespace MarmosetLang

/-- The name of a place among files. -/
structure PathName where
  /-- The slashes in front: none for a relative path, and otherwise one or two. -/
  root : String
  /-- The names on the way. -/
  parts : List String
deriving DecidableEq, Repr

namespace PathName

/-- The slashes in front of a path.  Exactly two count as two, and any other number as one. -/
def rootOf : List Char → String
  | '/' :: '/' :: '/' :: _ => "/"
  | '/' :: '/' :: _ => "//"
  | '/' :: _ => "/"
  | _ => ""

/-- The names between the slashes of a path. -/
def names : List Char → List (List Char)
  | [] => [[]]
  | c :: rest =>
      if c = '/' then
        [] :: names rest
      else
        match names rest with
        | [] => [[c]]
        | name :: others => (c :: name) :: others

/-- Read a path. -/
def ofText (text : String) : PathName :=
  ⟨rootOf text.toList,
    ((names text.toList).map String.ofList).filter fun name => name ≠ "" ∧ name ≠ "."⟩

/-- Write a path.  A path that leads nowhere is written as a dot. -/
def render (path : PathName) : String :=
  if path.root = "" ∧ path.parts = [] then "." else path.root ++ "/".intercalate path.parts

/-- The place that `path` names when seen from the place `start`. -/
def resolve (start path : PathName) : PathName :=
  if path.root = "" then ⟨start.root, start.parts ++ path.parts⟩ else path

end PathName

end MarmosetLang
