import MarmosetLang.Command

/-!
# The program

Input and output for the command.  Arguments and files are read here, and what the command answers
is written here; everything else is decided by the command.
-/

namespace MarmosetLang
namespace Command

/-- Look at what a path leads to. -/
def findingOf (path : PathName) : IO Finding := do
  try
    let bytes ← IO.FS.readBinFile path.render
    return .file bytes
  catch
    | .noFileOrDirectory _ _ _ => return .missing
    | .inappropriateType _ _ _ => return .obstructed .directory
    | failure => throw failure

/-- Say why the command was broken off. -/
def epitaph : Interruption → String
  | .tooManyIssues => "There are too many problems."
  | .notClear message => message
  | .unreadable (.numeralTooLong digits) =>
      "A numeral of " ++ Decimal.ofNat digits ++ " digits is too long."
  | .unreadable (.noExtension kind) => "Nothing is known about " ++ kind.name ++ "."
  | .unreadable .stuck => "There is no way forward."
  | .obstructed .directory => "The program is a directory."
  | .obstructed .notDirectory => "The way to the program leads through a file."
  | .obstructed .nameTooLong => "The name of the program is too long."
  | .obstructed .nullInName => "There is a null character in the name of the program."
  | .notText => "The program is not a text."

/-- Write what a session has to say, and forget it. -/
def flush (session : Session) : IO Session := do
  let (output, store) := session.store.drain
  let (said, report) := session.report.drain
  IO.print output
  (← IO.getStdout).flush
  IO.eprint said
  return { session with store, report }

/-- Hold a dialogue with whoever writes the input, up to its end. -/
partial def converse (session : Session) : IO UInt32 := do
  let (_, session) := Session.write Dialogue.prompt session
  let session ← flush session
  let line ← (← IO.getStdin).getLine
  if line.isEmpty then
    IO.println ""
    return 0
  else
    let (ending, session) := Dialogue.answer line session
    let session ← flush session
    match ending with
    | .ok _ => converse session
    | .error interruption => do
        IO.eprintln (epitaph interruption)
        return 1

/-- Write what a call comes to, and give its status. -/
def conveyEnding (ending : Ending) : IO UInt32 := do
  IO.print ending.output
  IO.eprint ending.said
  match ending.status with
  | .ok status => return UInt32.ofNat status
  | .error interruption => do
      IO.eprintln (epitaph interruption)
      return 1

/-- Answer a call with the given arguments. -/
def answerCall (arguments : List String) : IO UInt32 := do
  let directory := PathName.ofText (← IO.currentDir).toString
  let pick ← IO.rand 0 164
  match Wish.ofArguments arguments with
  | .ok (some ⟨none, _, verbosity⟩) => do
      if ← (← IO.getStdin).isTty then
        IO.print welcome
      converse (Session.start (Report.empty (verbosity != 0) none pick))
  | .ok (some ⟨some program, _, _⟩) => do
      let finding ← findingOf (PathName.ofText program)
      conveyEnding (run ⟨directory, fun _ => finding, "", false, pick⟩ arguments)
  | _ => conveyEnding (run ⟨directory, fun _ => .missing, "", false, pick⟩ arguments)

end Command
end MarmosetLang

/-- Run the command. -/
def main (arguments : List String) : IO UInt32 :=
  MarmosetLang.Command.answerCall arguments
