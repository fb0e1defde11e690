import MarmosetLang.Number.Decimal
import MarmosetLang.PathName
import MarmosetLang.Text.Blank
import MarmosetLang.Text.Line

/-!
# Pictures

A picture tells of a problem by an introduction, a number of marks and a footer.  A mark shows one
line of a text, with its number in front, and carets under the place that it is about.
-/

namespace MarmosetLang

/-- A place in a text, with something to say about it. -/
structure Mark where
  /-- The text. -/
  source : String
  /-- The path of the file with the text, if it has one. -/
  path : Option PathName
  /-- The number of characters of the text before the place. -/
  offset : Nat
  /-- The number of characters that the place covers. -/
  width : Nat
  /-- What is said about it. -/
  caption : String

namespace Mark

/-- The number of a line and a bar, right-justified, with at least one blank in front. -/
def gutter (row : Nat) : List Char :=
  let digits := Nat.toDigits 10 row
  List.replicate (max 1 (6 - digits.length)) ' ' ++ digits ++ [' ', '|']

/-- The blank that takes up as much room as a character. -/
def roomOf (c : Char) : Char :=
  if c = '\t' then '\t' else ' '

/-- The number of carets under a place of the given width: they do not reach beyond the line, but
there is one at least. -/
def carets (place : Line.Place) (width : Nat) : Nat :=
  max 1 (min width (place.line.length - place.column))

/-- Draw a mark as two lines. -/
def render (mark : Mark) : String :=
  let place := Line.locate mark.source mark.offset
  let shown := gutter place.row ++ dropBlanksRight place.line
  let room := (gutter place.row ++ place.line.take place.column).map roomOf
  String.ofList
    (shown ++ '\n' :: room ++ List.replicate (carets place mark.width) '^' ++ [' ']) ++ mark.caption

end Mark

/-- A problem in words and marks. -/
structure Picture where
  /-- What the problem is. -/
  intro : String
  /-- The places that have to do with it. -/
  marks : List Mark
  /-- Lines to close with. -/
  footer : List String

namespace Picture

/-- Draw marks one after another, with a line for the path wherever it changes. -/
def renderMarks (path : Option PathName) : List Mark → List String
  | [] => []
  | mark :: others =>
      if mark.path = path then
        mark.render :: renderMarks path others
      else
        (mark.path.elim "None" PathName.render) :: mark.render :: renderMarks mark.path others

/-- Draw a picture. -/
def render (picture : Picture) : String :=
  "\n".intercalate (picture.intro :: renderMarks none picture.marks ++ picture.footer)

end Picture

end MarmosetLang
