import MarmosetLang.Command.Arguments
import MarmosetLang.Command.Folder
import MarmosetLang.Command.Usage
import MarmosetLang.Dialogue

/-!
# The command

The command runs or checks the program in a file, or else holds a dialogue.  Its status is zero if
nothing went wrong, one if there were problems, and two if its arguments were refused.
-/

namespace MarmosetLang
namespace Command

/-- What lies around the command when it is called. -/
structure Surroundings where
  /-- The directory in which it is called. -/
  directory : PathName
  /-- What is found at a path seen from there. -/
  find : PathName → Finding
  /-- The text of its input. -/
  input : String
  /-- Whether its input is a terminal. -/
  terminal : Bool
  /-- The number of the outburst in use. -/
  pick : Int

/-- How the command ends. -/
structure Ending where
  /-- Its status, unless it was broken off. -/
  status : Except Interruption Nat
  /-- What programs have printed. -/
  output : String
  /-- What was said about them. -/
  said : String

/-- The text in a file, with every line break as a line feed. -/
def textOf? (bytes : ByteArray) : Option String :=
  (String.fromUTF8? bytes).map fun text => String.ofList (Line.unify text.toList)

/-- Read the program at a path, and report if there is none. -/
def readProgram (finding : Finding) (path : PathName) : Reporting (Option Program) :=
  match finding with
  | .missing => do
      Report.addMissing path
      return none
  | .obstructed obstacle => throw (.obstructed obstacle)
  | .file bytes =>
      match textOf? bytes with
      | none => throw .notText
      | some text => Report.parse text (some path)

/-- Check the program at a path. -/
def check (finding : Finding) (path : PathName) : Working Unit := do
  let _ ← Session.onReport (readProgram finding path)
  let session ← get
  if session.report.isClear then
    Session.onReport (modify fun report => report.say "Looks plausible to me.")

/-- Run the program at a path and show its value. -/
def runFile (finding : Finding) (path : PathName) : Working Unit := do
  match ← Session.onReport (readProgram finding path) with
  | none => return ()
  | some program => Session.display (← Session.execute program)

/-- Go on after work that was broken off because of too many problems. -/
def untilTooMany (work : Working Unit) : Working Unit :=
  tryCatch work fun
    | .tooManyIssues => pure ()
    | other => throw other

/-- Complain about the problems that came up, and give the status. -/
def conclude : Working Nat := do
  let session ← get
  if session.report.isClear then
    return 0
  else
    Session.onReport Report.complain
    return 1

/-- Do what was asked. -/
def fulfil (surroundings : Surroundings) (wish : Wish) : Working Nat :=
  match wish.program with
  | none => do
      if surroundings.terminal then
        Session.write welcome
      Dialogue.hold (Dialogue.lines surroundings.input)
      return 0
  | some program => do
      let finding := surroundings.find (PathName.ofText program)
      let path := surroundings.directory.resolve (PathName.ofText program)
      untilTooMany (if wish.check then check finding path else runFile finding path)
      conclude

/-- Call the command. -/
def run (surroundings : Surroundings) (arguments : List String) : Ending :=
  match Wish.ofArguments arguments with
  | .error refusal =>
      ⟨.ok 2, "", usage ++ name ++ ": error: " ++ refusal.message ++ "\n"⟩
  | .ok none => ⟨.ok 0, explanation, ""⟩
  | .ok (some wish) =>
      let report := Report.empty (wish.verbosity != 0) none surroundings.pick
      let (status, session) := fulfil surroundings wish (Session.start report)
      ⟨status, session.store.output, session.report.said⟩

end Command
end MarmosetLang
