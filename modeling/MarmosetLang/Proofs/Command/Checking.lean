import MarmosetLang.Command
import MarmosetLang.Proofs.Command.Arguments
import MarmosetLang.Proofs.Grammar.Answering
import MarmosetLang.Proofs.Session.Pieces

/-!
# Checking and running

Checking a program and running it read it in the same way.  Where reading comes to problems, both
complain of them and do nothing else.  Where it comes to a program, checking has nothing to complain
of, and running can only complain of how the program ends.
-/

namespace MarmosetLang
namespace Command

open Session (onReport adding answerOf problemsOf shownText)

/-! ## What there is to read -/

namespace Surroundings

variable {surroundings : Surroundings} {program : String}

/-- There is a file with the given text. -/
def Holds (surroundings : Surroundings) (program source : String) : Prop :=
  ∃ bytes, surroundings.find (PathName.ofText program) = .file bytes ∧ textOf? bytes = some source

/-- There is no file, or a text without a numeral that is too long. -/
def Readable (surroundings : Surroundings) (program : String) : Prop :=
  surroundings.find (PathName.ofText program) = .missing ∨
    ∃ source, surroundings.Holds program source ∧
      ∀ token ∈ Token.scan source, token.kind = .integer →
        token.literal.length ≤ Grammar.maxDigits

/-- There is a file with a text that has no issues, and the program that it comes to. -/
def Offers (surroundings : Surroundings) (program : String) (text : Program) : Prop :=
  ∃ source parsed, surroundings.Holds program source ∧
    Grammar.parseText source = .ok parsed ∧ parsed.issues = [] ∧ parsed.program = text

/-- Read the program of a given name. -/
def reading (surroundings : Surroundings) (program : String) : Reporting (Option Program) :=
  readProgram (surroundings.find (PathName.ofText program))
    (surroundings.directory.resolve (PathName.ofText program))

theorem Holds.unique {source other : String} (holds : surroundings.Holds program source)
    (also : surroundings.Holds program other) : source = other := by
  obtain ⟨bytes, found, text_eq⟩ := holds
  obtain ⟨_, found_again, other_eq⟩ := also
  obtain rfl := Finding.file.inj (found.symm.trans found_again)
  exact Option.some.inj (text_eq.symm.trans other_eq)

theorem Offers.unique {text other : Program} (offers : surroundings.Offers program text)
    (also : surroundings.Offers program other) : text = other := by
  obtain ⟨source, parsed, holds, parse_eq, -, rfl⟩ := offers
  obtain ⟨_, _, holds_also, parse_also, -, rfl⟩ := also
  obtain rfl := holds.unique holds_also
  rw [Except.ok.inj (parse_eq.symm.trans parse_also)]

/-- Reading comes to a program, or else to problems. -/
theorem Readable.cases (readable : surroundings.Readable program) :
    (∃ text, surroundings.Offers program text ∧
      ∀ report, surroundings.reading program report = (.ok (some text), report.noting text)) ∨
    ((¬ ∃ text, surroundings.Offers program text) ∧ ∃ pictures, pictures ≠ [] ∧
      ∀ report : Report, report.limit = none →
        surroundings.reading program report = (.ok none, report.adding pictures)) := by
  rw [reading]
  generalize surroundings.directory.resolve (PathName.ofText program) = path
  obtain missing | ⟨source, holds, short⟩ := readable
  · refine .inr ⟨?_, [⟨"I see no file called " ++ path.render, [], []⟩], List.cons_ne_nil _ _,
      fun report unlimited => ?_⟩
    · rintro ⟨_, _, _, ⟨_, found, _⟩, -⟩
      rw [missing] at found
      exact nomatch found
    · rw [missing, readProgram]
      exact bind_of_ok (Report.add_of_unlimited unlimited _)
  · have short_stream : (Stream.ofText source).Short := short
    obtain ⟨parsed, parse_eq⟩ : ∃ parsed, Grammar.parseText source = .ok parsed :=
      Grammar.exists_parse_eq short_stream
    have read_eq : readProgram (surroundings.find (PathName.ofText program)) path =
        Report.parse source (some path) := by
      obtain ⟨bytes, found, text_eq⟩ := holds
      rw [found, readProgram, text_eq]
    rw [read_eq]
    by_cases clean : parsed.issues = []
    · exact .inl ⟨parsed.program, ⟨source, parsed, holds, parse_eq, clean, rfl⟩,
        Report.parse_of_clean parse_eq clean _⟩
    · refine .inr ⟨?_, _, mt List.map_eq_nil_iff.mp clean, fun _ unlimited =>
        Report.parse_of_unlimited parse_eq clean unlimited _⟩
      rintro ⟨_, _, other, holds_also, parse_also, clean_also, -⟩
      obtain rfl := holds.unique holds_also
      obtain rfl := Except.ok.inj (parse_eq.symm.trans parse_also)
      exact clean clean_also

end Surroundings

/-! ## What is done about it -/

theorem untilTooMany_of_ok {work : Working Unit} {session later : Session}
    (done : work session = (.ok (), later)) : untilTooMany work session = (.ok (), later) := by
  simp only [untilTooMany, tryCatch, tryCatchThe, MonadExceptOf.tryCatch, ExceptT.tryCatch,
    ExceptT.mk, bind, StateT.bind, done]
  rfl

/-- The command ends with a complaint about the problems of a session, if there are any. -/
def endingOf (session : Session) : Ending where
  status := .ok (if session.report.isClear then 0 else 1)
  output := session.store.output
  said := session.report.complained.said

theorem endingOf_of_clear {session : Session} (clear : session.report.isClear = true) :
    endingOf session = ⟨.ok 0, session.store.output, session.report.said⟩ := by
  rw [endingOf, clear, Report.complained_of_clear clear]
  rfl

section Work

variable {finding : Finding} {path : PathName} {session : Session}

theorem conclude_eq (session : Session) :
    conclude session =
      (.ok (if session.report.isClear then 0 else 1),
        { session with report := session.report.complained }) := by
  change (if session.report.isClear = true then pure 0 else
    onReport Report.complain >>= fun _ => pure 1 : Working Nat) session = _
  cases clear : session.report.isClear with
  | true =>
      rw [Report.complained_of_clear clear]
      rfl
  | false => exact bind_of_ok (Session.onReport_of_ok (Report.complain_eq session.report))

theorem isClear_adding {pictures : List Picture} (problems : pictures ≠ []) (session : Session) :
    (session.adding pictures).report.isClear = false := by
  rw [Report.isClear, List.isEmpty_eq_false_iff]
  exact List.append_ne_nil_of_right_ne_nil _ problems

/-- Checking reads a program, and then only looks at the report. -/
theorem check_of_read {found : Option Program} {report : Report}
    (read : readProgram finding path session.report = (.ok found, report)) :
    check finding path session =
      (.ok (), { session with
        report := if report.isClear then report.say "Looks plausible to me." else report }) := by
  refine (bind_of_ok (Session.onReport_of_ok read)).trans ?_
  change (if report.isClear = true then _ else pure () : Working Unit) _ = _
  cases report.isClear with
  | true => rfl
  | false => rfl

section Problems

variable {pictures : List Picture}
  (read : readProgram finding path session.report = (.ok none, session.report.adding pictures))
include read

theorem check_of_problems (problems : pictures ≠ []) :
    check finding path session = (.ok (), session.adding pictures) := by
  have unclear : (session.report.adding pictures).isClear = false :=
    isClear_adding problems session
  rw [check_of_read read, unclear]
  rfl

theorem runFile_of_problems : runFile finding path session = (.ok (), session.adding pictures) :=
  bind_of_ok (Session.onReport_of_ok read)

end Problems

section Programs

variable {text : Program}
  (read : readProgram finding path session.report = (.ok (some text), session.report.noting text))
include read

theorem check_of_program (clear : session.report.isClear = true) :
    check finding path session =
      (.ok (), { session with
        report := (session.report.noting text).say "Looks plausible to me." }) := by
  rw [check_of_read read, Report.isClear_noting, clear]
  rfl

theorem runFile_of_program (unlimited : session.report.limit = none) {answer : Option Value}
    {later : Store}
    (ran : Evaluation.run session.scope text session.store = (.finished answer, later)) :
    runFile finding path session =
      (.ok (), adding (problemsOf (.finished answer)) { session with
        report := session.report.noting text
        store := { later with output := later.output ++ shownText answer } }) := by
  refine (bind_of_ok (Session.onReport_of_ok read)).trans ?_
  have still_unlimited : (session.report.noting text).limit = none := by
    rw [Report.noting_eq_said]
    exact unlimited
  have executed : Session.execute text { session with report := session.report.noting text } = _ :=
    Session.execute_of_unlimited text still_unlimited
  dsimp only at executed
  rw [ran] at executed
  exact (bind_of_ok executed).trans (Session.display_eq answer _)

end Programs

end Work

/-! ## What a call comes to -/

section Calls

variable {surroundings : Surroundings} {program : String} {arguments : List String}
  {flags : List Flag} (asks : Asks program arguments flags)
  (named : program.toList.head? ≠ some '-') (no_help : .help ∉ flags)

/-- The session in which a file is read. -/
def opening (surroundings : Surroundings) (flags : List Flag) : Session :=
  Session.start (Report.empty (flags.count .verbose != 0) none surroundings.pick)

include asks named no_help

/-- A call ends as the work on its program leaves the session. -/
theorem run_of_done {later : Session}
    (done : (if .check ∈ flags then
          check (surroundings.find (PathName.ofText program))
            (surroundings.directory.resolve (PathName.ofText program))
        else
          runFile (surroundings.find (PathName.ofText program))
            (surroundings.directory.resolve (PathName.ofText program)))
        (opening surroundings flags) = (.ok (), later)) :
    run surroundings arguments = endingOf later := by
  have fulfilled : fulfil surroundings
      ⟨some program, decide (.check ∈ flags), flags.count .verbose⟩ (opening surroundings flags) =
        conclude later := by
    refine bind_of_ok (untilTooMany_of_ok ?_)
    simpa only [decide_eq_true_eq] using done
  rw [conclude_eq] at fulfilled
  rw [run, asks.ofArguments_eq named no_help]
  dsimp only
  rw [← opening, fulfilled]
  rfl

/-- Where reading comes to problems, a call complains of them and does nothing else. -/
theorem run_of_problems {pictures : List Picture} (problems : pictures ≠ [])
    (read : ∀ report : Report, report.limit = none →
      surroundings.reading program report = (.ok none, report.adding pictures)) :
    run surroundings arguments =
      ⟨.ok 1, "", Report.complaintText surroundings.pick pictures⟩ := by
  have read_opening := read (opening surroundings flags).report rfl
  have done : run surroundings arguments =
      endingOf ((opening surroundings flags).adding pictures) := by
    refine run_of_done asks named no_help ?_
    split
    · exact check_of_problems read_opening problems
    · exact runFile_of_problems read_opening
  rw [done, endingOf, isClear_adding problems]
  exact congrArg (Ending.mk _ _) String.empty_append

section Programs

variable {text : Program}
  (read : ∀ report,
    surroundings.reading program report = (.ok (some text), report.noting text))
include read

/-- Checking has nothing to complain of where reading comes to a program. -/
theorem run_check_of_program (checks : .check ∈ flags) :
    run surroundings arguments =
      ⟨.ok 0, "", (((opening surroundings flags).report.noting text).say
        "Looks plausible to me.").said⟩ := by
  have checked := check_of_program (read (opening surroundings flags).report) rfl
  rw [run_of_done asks named no_help (by rw [if_pos checks]; exact checked)]
  exact endingOf_of_clear (Report.isClear_noting text (opening surroundings flags).report)

/-- Running can complain only of how the program ends, and shows its value otherwise. -/
theorem run_of_program (runs : .check ∉ flags) {answer : Option Value} {later : Store}
    (ran : Evaluation.run (Store.empty.enclose none).1 text (Store.empty.enclose none).2 =
      (.finished answer, later)) :
    run surroundings arguments =
      ⟨.ok (if (problemsOf (.finished answer)).isEmpty then 0 else 1),
        later.output ++ shownText answer,
        ((opening surroundings flags).report.noting text).said ++
          Report.complaintText surroundings.pick (problemsOf (.finished answer))⟩ := by
  have shown := runFile_of_program (read (opening surroundings flags).report) rfl ran
  rw [run_of_done asks named no_help (by rw [if_neg runs]; exact shown), Report.noting_eq_append]
  rfl

end Programs

end Calls

/-- Checking a program prints nothing, and has nothing to complain of exactly if there is a program
without issues.  Otherwise running it ends just as checking it does.  A program that is run to its
end fails exactly if it comes to a mistake, and then nothing is shown but what it has printed.  Any
other value is shown behind that. -/
theorem check_agrees_with_run (surroundings : Surroundings) {program : String}
    (named : program.toList.head? ≠ some '-') (readable : surroundings.Readable program)
    {checking running : List String} {flags others : List Flag}
    (asks_check : Asks program checking flags) (checks : .check ∈ flags) (no_help : .help ∉ flags)
    (asks_run : Asks program running others) (runs : .check ∉ others)
    (no_help_either : .help ∉ others) :
    let checked := run surroundings checking
    let ran := run surroundings running
    checked.output = "" ∧
      (checked.status = .ok 0 ∨ checked.status = .ok 1) ∧
      (checked.status = .ok 0 ↔ ∃ text, surroundings.Offers program text) ∧
      (checked.status = .ok 1 → ran = ⟨.ok 1, "", checked.said⟩) ∧
      ∀ text, surroundings.Offers program text → ∀ answer later,
        Evaluation.run (Store.empty.enclose none).1 text (Store.empty.enclose none).2 =
            (.finished answer, later) →
          (ran.status = .ok 1 ↔ ∃ serial mistake, answer = some (.error serial mistake)) ∧
          (ran.status = .ok 1 → ran.output = later.output) ∧
          (ran.status ≠ .ok 1 → ran.status = .ok 0 ∧
            ran.output = later.output ++ answer.elim "" fun value => value.render ++ "\n") := by
  dsimp only
  obtain ⟨text, offers, read⟩ | ⟨offers_none, pictures, problems, read⟩ := readable.cases
  · rw [run_check_of_program asks_check named no_help read checks]
    refine ⟨rfl, .inl rfl, ⟨fun _ => ⟨text, offers⟩, fun _ => rfl⟩, nofun, ?_⟩
    intro other also answer later ran
    obtain rfl := offers.unique also
    rw [run_of_program asks_run named no_help_either read runs ran]
    by_cases mistaken : ∃ serial mistake, answer = some (.error serial mistake)
    · obtain ⟨serial, mistake, rfl⟩ := mistaken
      exact ⟨⟨fun _ => ⟨serial, mistake, rfl⟩, fun _ => rfl⟩, fun _ => String.append_empty,
        fun not_one => absurd rfl not_one⟩
    · have sound (serial mistake) : answer ≠ some (.error serial mistake) :=
        fun answer_eq => mistaken ⟨serial, mistake, answer_eq⟩
      rw [Session.problemsOf_of_sound sound, Session.shownText_of_sound sound]
      exact ⟨⟨nofun, fun found => absurd found mistaken⟩, nofun, fun _ => ⟨rfl, rfl⟩⟩
  · rw [run_of_problems asks_check named no_help problems read,
      run_of_problems asks_run named no_help_either problems read]
    exact ⟨rfl, .inr rfl, ⟨nofun, fun offers => absurd offers offers_none⟩, fun _ => rfl,
      fun text offers => absurd ⟨text, offers⟩ offers_none⟩

/-- Surroundings in which every file holds a binding. -/
def sample : Surroundings where
  directory := PathName.ofText "/"
  find _ := .file "let a = 2;".toUTF8
  input := ""
  terminal := false
  pick := 7

theorem holds_sample (program : String) : sample.Holds program "let a = 2;" :=
  ⟨_, rfl, by decide +kernel⟩

theorem check_agrees_with_run_sample :
    "a.mk".toList.head? ≠ some '-' ∧ sample.Readable "a.mk" ∧
      Asks "a.mk" ["-cv", "a.mk"] [.check, .verbose] ∧
      Asks "a.mk" ["a.mk", "--verbose"] [.verbose] ∧
      (run sample ["-cv", "a.mk"]).status = .ok 0 ∧ (run sample ["-cv", "a.mk"]).output = "" ∧
      (run sample ["a.mk", "--verbose"]).status = .ok 0 := by
  have named : "a.mk".toList.head? ≠ some '-' := by decide
  have readable : sample.Readable "a.mk" := by
    refine .inr ⟨_, holds_sample _, ?_⟩
    rw [Session.scan_sampleBinding]
    decide
  have checking : Asks "a.mk" ["-cv", "a.mk"] [.check, .verbose] :=
    .amid (.cons (.letters .check [.verbose]) .nil) .nil
  have running : Asks "a.mk" ["a.mk", "--verbose"] [.verbose] :=
    .amid .nil (.cons (.word .verbose) .nil)
  have offers : sample.Offers "a.mk" Session.sampleBinding :=
    ⟨_, _, holds_sample _, Session.parseText_sampleBinding, rfl, rfl⟩
  obtain ⟨output_eq, -, zero_iff, -, ends⟩ := check_agrees_with_run sample named readable checking
    (by decide) (by decide) running (by decide) (by decide)
  obtain ⟨found, later, ran, plain⟩ := Session.settles_sampleBinding
  obtain ⟨one_iff, -, otherwise⟩ :=
    ends _ offers found later (Evaluation.program_of_finished ran plain)
  refine ⟨named, readable, checking, running, zero_iff.mpr ⟨_, offers⟩, output_eq,
    (otherwise fun one => ?_).1⟩
  obtain ⟨_, _, rfl⟩ := one_iff.mp one
  exact nomatch plain

end Command
end MarmosetLang
