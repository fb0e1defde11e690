/-!
# Lines

A line of a text ends after a line feed, after a carriage return, or after both in this order, and
keeps its line break.  What follows the last line break is a line too, even if it is empty.  Hence
no text is without lines, and the lines put one after another give back the text.
-/

namespace MarmosetLang
namespace Line

/-- The lines of a text. -/
def split : List Char → List (List Char)
  | [] => [[]]
  | '\r' :: '\n' :: rest => ['\r', '\n'] :: split rest
  | c :: rest =>
      if c = '\r' ∨ c = '\n' then
        [c] :: split rest
      else
        match split rest with
        | [] => [[c]]
        | line :: others => (c :: line) :: others

/-- A place in a text: a line and the number of characters before the place on that line. -/
structure Place where
  /-- The number of the line, counted from one. -/
  row : Nat
  /-- The number of characters before the place on its line. -/
  column : Nat
  /-- The line with its line break. -/
  line : List Char
deriving DecidableEq, Repr

/-- Find an offset in the lines from the given row on.  Each line takes up its length, and what lies
beyond the last one is still on it. -/
def locateFrom (row offset : Nat) : List (List Char) → Place
  | [] => ⟨row, offset, []⟩
  | [line] => ⟨row, offset, line⟩
  | line :: next :: others =>
      if offset < line.length then
        ⟨row, offset, line⟩
      else
        locateFrom (row + 1) (offset - line.length) (next :: others)

/-- Find an offset in a text. -/
def locate (text : String) (offset : Nat) : Place :=
  locateFrom 1 offset (split text.toList)

/-- The parts of a text up to each line feed, which stays with the part that it ends.  What follows
the last line feed is a part only if there is something. -/
def splitFeeds : List Char → List (List Char)
  | [] => []
  | c :: rest =>
      if c = '\n' then
        [c] :: splitFeeds rest
      else
        match splitFeeds rest with
        | [] => [[c]]
        | line :: others => (c :: line) :: others

/-- Write every line break as a line feed. -/
def unify : List Char → List Char
  | [] => []
  | '\r' :: '\n' :: rest => '\n' :: unify rest
  | c :: rest => (if c = '\r' then '\n' else c) :: unify rest

theorem split_ne_nil (text : List Char) : split text ≠ [] := by
  fun_cases split text <;> simp_all

theorem flatten_split (text : List Char) : (split text).flatten = text := by
  fun_induction split text <;> simp_all

end Line
end MarmosetLang
