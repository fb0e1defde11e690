import MarmosetLang.Session

/-!
# Dialogues

A dialogue runs the lines of its input one by one in one session, and shows what each comes to.  A
complaint never ends it: the report starts afresh with the next line.
-/

namespace MarmosetLang
namespace Dialogue

/-- The text that asks for a line. -/
def prompt : String := ">> "

/-- The lines that an input gives, each with its line feed. -/
def lines (input : String) : List String :=
  (Line.splitFeeds input.toList).map String.ofList

/-- Run a line, show its value, and complain if something went wrong. -/
def answer (line : String) : Working Unit := do
  let value ← Session.runText line none
  Session.display value
  let session ← get
  if !session.report.isClear then
    Session.onReport Report.complain
    Session.onReport Report.reset

/-- Ask for lines until the input has ended, which takes a line of its own. -/
def hold : List String → Working Unit
  | [] => Session.write (prompt ++ "\n")
  | line :: others => do
      Session.write prompt
      answer line
      hold others

end Dialogue
end MarmosetLang
