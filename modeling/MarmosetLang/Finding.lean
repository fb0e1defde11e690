/-!
# Findings

What comes of looking for a file.
-/

namespace MarmosetLang

/-- What stands in the way of a file, other than that there is none. -/
inductive Obstacle where
  /-- There is a directory in its place. -/
  | directory
  /-- There is a file in the place of a directory that leads to it. -/
  | notDirectory
  /-- A name on the way to it, or the way as a whole, is too long. -/
  | nameTooLong
  /-- There is a null character in its name. -/
  | nullInName
deriving DecidableEq, Repr

/-- What is found at a place. -/
inductive Finding where
  /-- There is nothing. -/
  | missing
  /-- There is something in the way. -/
  | obstructed (obstacle : Obstacle)
  /-- There is a file with these bytes. -/
  | file (bytes : ByteArray)

end MarmosetLang
