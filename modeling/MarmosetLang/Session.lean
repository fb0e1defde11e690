import MarmosetLang.Evaluation
import MarmosetLang.Report

/-!
# Sessions

A session keeps one scope alive over any number of texts, and a report on what goes wrong in them.

Only the evaluation of a program can go too deep.  Texts are parsed and values are displayed however
deeply they are nested, since neither has a stack that could be exhausted.
-/

namespace MarmosetLang

/-- A report, a store, and the scope in which texts are run. -/
structure Session where
  /-- The report on what goes wrong. -/
  report : Report
  /-- The store. -/
  store : Store
  /-- The scope in which texts are run. -/
  scope : ScopeId

/-- Work in a session.  What it has done before it is broken off stays done. -/
abbrev Working (α : Type) := ExceptT Interruption (StateM Session) α

namespace Session

/-- A session in which nothing has been run. -/
def start (report : Report) : Session :=
  let (scope, store) := Store.empty.enclose none
  ⟨report, store, scope⟩

/-- Do a piece of work on the report of a session. -/
def onReport {α : Type} (work : Reporting α) : Working α :=
  fun session =>
    let (answer, report) := work session.report
    (answer, { session with report := report })

/-- Write to the output of the session. -/
def write (text : String) : Working Unit :=
  modify fun session =>
    { session with store := { session.store with output := session.store.output ++ text } }

/-- Show a value, unless there is none or it is a mistake. -/
def display (value : Option Value) : Working Unit :=
  match value with
  | none => pure ()
  | some (.error _ _) => pure ()
  | some value => write (value.render ++ "\n")

/-- Do a run in the scope of the session. -/
def perform {α : Type} (run : ScopeId → Run α) : Working (Outcome α) :=
  fun session =>
    let (outcome, store) := run session.scope session.store
    (.ok outcome, { session with store := store })

/-- Run a program.  A mistake that it comes to is reported, and so is going too deep. -/
def execute (program : Program) : Working (Option Value) := do
  match ← perform fun scope => Evaluation.run scope program with
  | .exhausted =>
      onReport Report.addExhausted
      return none
  | .finished (some (.error serial mistake)) =>
      onReport (Report.addMistake mistake.message)
      return some (.error serial mistake)
  | .finished value => return value

/-- Run a text.  If it has issues, they are reported and nothing is run. -/
def runText (source : String) (path : Option PathName) : Working (Option Value) := do
  match ← onReport (Report.parse source path) with
  | none => return none
  | some program => execute program

end Session

end MarmosetLang
