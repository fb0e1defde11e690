import MarmosetLang.Finding
import MarmosetLang.Grammar.Program
import MarmosetLang.Picture
import MarmosetLang.Report.Outburst

/-!
# Reports

A report gathers pictures of problems until someone complains about them.  It may have a limit, and
work is broken off when the number of problems comes to be just that limit.  What a report has to
say goes to a text of its own, apart from what programs print.
-/

namespace MarmosetLang

/-- Why work is broken off. -/
inductive Interruption where
  /-- As many problems have come up as the limit says. -/
  | tooManyIssues
  /-- There are problems where none may be. -/
  | notClear (message : String)
  /-- A text gets no answer from the grammar. -/
  | unreadable (halt : Halt)
  /-- Something is in the way of a file. -/
  | obstructed (obstacle : Obstacle)
  /-- A file holds no text. -/
  | notText
deriving DecidableEq, Repr

/-- The problems that have come up, and what has been said about them. -/
structure Report where
  /-- Whether progress is reported as well. -/
  talkative : Bool
  /-- The number of problems at which work is broken off. -/
  limit : Option Int
  /-- The number of the outburst in use. -/
  pick : Int
  /-- The problems that have come up, in order. -/
  pictures : List Picture
  /-- The text written so far. -/
  said : String

/-- Work on a report.  What it has done before it is broken off stays done. -/
abbrev Reporting (α : Type) := ExceptT Interruption (StateM Report) α

namespace Report

/-- A report before anything has come up. -/
def empty (talkative : Bool) (limit : Option Int) (pick : Int) : Report :=
  ⟨talkative, limit, pick, [], ""⟩

/-- Whether no problem has come up. -/
def isClear (report : Report) : Bool :=
  report.pictures.isEmpty

/-- Write a line. -/
def say (report : Report) (line : String) : Report :=
  { report with said := report.said ++ line ++ "\n" }

/-- Take out the text written so far. -/
def drain (report : Report) : String × Report :=
  (report.said, { report with said := "" })

/-- The lines of a complaint: an outburst, then the problems with a rule before each. -/
def complaint (report : Report) : List String :=
  (if report.isClear then [] else ["".pushn '*' 60, Outburst.render report.pick]) ++
    report.pictures.flatMap fun picture =>
      [String.ofList (List.replicate 20 [' ', ' ', '-']).flatten, picture.render]

/-- Keep a problem.  Work is broken off if it is the one that reaches the limit. -/
def add (picture : Picture) : Reporting Unit := do
  modify fun report => { report with pictures := report.pictures ++ [picture] }
  let report ← get
  if report.limit = some (report.pictures.length : Int) then
    throw .tooManyIssues

/-- Forget all problems. -/
def reset : Reporting Unit :=
  modify fun report => { report with pictures := [] }

/-- Report progress, if that is wanted. -/
def inform (words : List String) : Reporting Unit :=
  modify fun report => if report.talkative then report.say (" ".intercalate words) else report

/-- Write down all problems. -/
def complain : Reporting Unit :=
  modify fun report => report.complaint.foldl say report

/-- Make sure that there is no problem.  Otherwise complain and break off. -/
def requireClear (message : String) : Reporting Unit := do
  let report ← get
  if !report.isClear then
    complain
    throw (.notClear (Outburst.render report.pick ++ " " ++ message))

/-- The picture of an issue in a text. -/
def pictureOf (source : String) (path : Option PathName) (issue : Issue) : Picture :=
  ⟨issue.message, [⟨source, path, issue.token.offset, issue.token.width, "got confused here"⟩], []⟩

/-- Report an issue in a text. -/
def addIssue (source : String) (path : Option PathName) (issue : Issue) : Reporting Unit :=
  add (pictureOf source path issue)

/-- Report that there is no file. -/
def addMissing (path : PathName) : Reporting Unit :=
  add ⟨"I see no file called " ++ path.render, [], []⟩

/-- Report a mistake that a program has come to. -/
def addMistake (message : String) : Reporting Unit :=
  add ⟨"ERROR: " ++ message, [], []⟩

/-- Report that a program went too deep. -/
def addExhausted : Reporting Unit :=
  add ⟨"The program recursed too deeply and exhausted the call stack.", [],
    ["Deep recursion is a resource limit of this interpreter, not a language error."]⟩

/-- Parse a text and report its issues.  A text with issues gives no program. -/
def parse (source : String) (path : Option PathName) : Reporting (Option Program) := do
  match Grammar.parseText source with
  | .error halt => throw (.unreadable halt)
  | .ok parsed =>
      if parsed.issues.isEmpty then
        let count := Decimal.ofNat parsed.program.statements.length
        inform ["Parsed " ++ count ++ " statement(s)"]
        return some parsed.program
      else
        parsed.issues.forM (addIssue source path)
        return none

end Report

end MarmosetLang
