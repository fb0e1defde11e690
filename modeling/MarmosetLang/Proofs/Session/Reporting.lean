import MarmosetLang.Session

/-!
# Reports in sessions

What a text and the end of a run do to the report of a session.  A text without issues is noted, if
progress is wanted, and its program goes on to be run.  A text with issues leaves a picture of each
of them in the report, and nothing is run.
-/

namespace MarmosetLang

section Steps

variable {σ α β : Type} {state later : σ} {work : ExceptT Interruption (StateM σ) α}
  {next : α → ExceptT Interruption (StateM σ) β}

theorem bind_of_ok {value : α} (ran : work state = (.ok value, later)) :
    (work >>= next) state = next value later := by
  change (match work state with | (answer, later) => ExceptT.bindCont next answer later) = _
  rw [ran]
  rfl

theorem bind_of_error {reason : Interruption} (ran : work state = (.error reason, later)) :
    (work >>= next) state = (.error reason, later) := by
  change (match work state with | (answer, later) => ExceptT.bindCont next answer later) = _
  rw [ran]
  rfl

end Steps

namespace Report

/-- The report with progress noted on a program, if that is wanted. -/
def noting (program : Program) (report : Report) : Report :=
  if report.talkative then
    report.say ("Parsed " ++ Decimal.ofNat program.statements.length ++ " statement(s)")
  else
    report

/-- The report with more pictures of problems. -/
def adding (pictures : List Picture) (report : Report) : Report :=
  { report with pictures := report.pictures ++ pictures }

theorem noting_eq_said (program : Program) (report : Report) :
    report.noting program = { report with said := (report.noting program).said } := by
  rw [noting]
  split <;> rfl

theorem isClear_noting (program : Program) (report : Report) :
    (report.noting program).isClear = report.isClear := by
  rw [noting_eq_said]
  rfl

theorem adding_nil (report : Report) : report.adding [] = report := by
  rw [adding, List.append_nil]

theorem adding_cons (picture : Picture) (pictures : List Picture) (report : Report) :
    report.adding (picture :: pictures) = (report.adding [picture]).adding pictures := by
  simp [adding]

/-- A problem is kept, and work is broken off if it is the one that reaches the limit. -/
theorem add_eq (picture : Picture) (report : Report) :
    add picture report =
      (if report.limit = some ((report.pictures ++ [picture]).length : Int) then
          .error .tooManyIssues
        else .ok (),
        report.adding [picture]) := by
  change (if report.limit = some ((report.pictures ++ [picture]).length : Int) then
      (throw Interruption.tooManyIssues : Reporting Unit) else pure ()) _ = _
  split <;> rfl

/-- It takes this many more problems to reach the limit. -/
def ReachesAt (report : Report) (count : Nat) : Prop :=
  report.limit = some ((report.pictures.length + count : Nat) : Int)

theorem reachesAt_adding (pictures : List Picture) (report : Report) (count : Nat) :
    (report.adding pictures).ReachesAt count ↔ report.ReachesAt (pictures.length + count) := by
  rw [ReachesAt, ReachesAt, adding, List.length_append, Nat.add_assoc]

theorem not_reachesAt_of_unlimited {report : Report} (unlimited : report.limit = none)
    (count : Nat) : ¬report.ReachesAt count := by
  rw [ReachesAt, unlimited]
  nofun

theorem add_of_reachesAt {report : Report} (reaches : report.ReachesAt 1) (picture : Picture) :
    add picture report = (.error .tooManyIssues, report.adding [picture]) := by
  rw [add_eq, List.length_append]
  exact congrArg (Prod.mk · _) (if_pos reaches)

theorem add_of_not_reachesAt {report : Report} (apart : ¬report.ReachesAt 1) (picture : Picture) :
    add picture report = (.ok (), report.adding [picture]) := by
  rw [add_eq, List.length_append]
  exact congrArg (Prod.mk · _) (if_neg apart)

/-- Where there is no limit, problems are kept and work goes on. -/
theorem add_of_unlimited {report : Report} (unlimited : report.limit = none) (picture : Picture) :
    add picture report = (.ok (), report.adding [picture]) :=
  add_of_not_reachesAt (not_reachesAt_of_unlimited unlimited 1) picture

/-- Issues that do not reach the limit are all reported. -/
theorem forM_addIssue_of_apart {report : Report} {issues : List Issue}
    (apart : ∀ count, 0 < count → count ≤ issues.length → ¬report.ReachesAt count)
    (source : String) (path : Option PathName) :
    issues.forM (addIssue source path) report =
      (.ok (), report.adding (issues.map (pictureOf source path))) := by
  induction issues generalizing report with
  | nil => rw [List.map_nil, adding_nil]; rfl
  | cons issue others ih =>
      have added : addIssue source path issue report =
          (.ok (), report.adding [pictureOf source path issue]) :=
        add_of_not_reachesAt (apart 1 Nat.one_pos (Nat.succ_pos _)) _
      have others_apart (count : Nat) (positive : 0 < count) (le : count ≤ others.length) :
          ¬(report.adding [pictureOf source path issue]).ReachesAt count := by
        rw [reachesAt_adding]
        apply apart
        · exact Nat.add_pos_left Nat.one_pos count
        · rw [List.length_singleton, List.length_cons]
          omega
      change (addIssue source path issue >>= fun _ => others.forM (addIssue source path)) report = _
      rw [bind_of_ok added, ih others_apart]
      exact congrArg (Prod.mk _) (adding_cons _ _ _).symm

/-- Issues are reported up to the one that reaches the limit. -/
theorem forM_addIssue_of_reachesAt {report : Report} {issues : List Issue} {count : Nat}
    (reaches : report.ReachesAt count) (positive : 0 < count) (le : count ≤ issues.length)
    (source : String) (path : Option PathName) :
    issues.forM (addIssue source path) report =
      (.error .tooManyIssues,
        report.adding ((issues.map (pictureOf source path)).take count)) := by
  induction issues generalizing report count with
  | nil => exact absurd (Nat.lt_of_lt_of_le positive le) (Nat.not_lt_zero 0)
  | cons issue others ih =>
      change (addIssue source path issue >>= fun _ => others.forM (addIssue source path)) report = _
      obtain _ | _ | further := count
      · cases positive
      · have added : addIssue source path issue report =
            (.error .tooManyIssues, report.adding [pictureOf source path issue]) :=
          add_of_reachesAt reaches _
        rw [bind_of_error added]
        rfl
      · have apart : ¬report.ReachesAt 1 := by
          intro reaches_now
          rw [ReachesAt, reaches, Option.some.injEq] at reaches_now
          omega
        have added : addIssue source path issue report =
            (.ok (), report.adding [pictureOf source path issue]) :=
          add_of_not_reachesAt apart _
        have still : (report.adding [pictureOf source path issue]).ReachesAt (further + 1) := by
          rwa [reachesAt_adding, List.length_singleton, Nat.add_comm 1]
        rw [bind_of_ok added, ih still (Nat.succ_pos further) (Nat.le_of_succ_le_succ le),
          List.map_cons, List.take_succ_cons, ← adding_cons]

/-! ## What is said -/

/-- The text that lines make up. -/
def textOf : List String → String
  | [] => ""
  | line :: others => line ++ "\n" ++ textOf others

/-- The text of a complaint about problems. -/
def complaintText (pick : Int) (pictures : List Picture) : String :=
  textOf (complaint ⟨false, none, pick, pictures, ""⟩)

/-- The text that is noted on a program. -/
def noteText (talkative : Bool) (program : Program) : String :=
  if talkative then
    "Parsed " ++ Decimal.ofNat program.statements.length ++ " statement(s)" ++ "\n"
  else
    ""

theorem foldl_say (lines : List String) (report : Report) :
    lines.foldl say report = { report with said := report.said ++ textOf lines } := by
  induction lines generalizing report with
  | nil => rw [List.foldl_nil, textOf, String.append_empty]
  | cons line others ih =>
      rw [List.foldl_cons, ih, say, textOf, String.append_assoc, String.append_assoc,
        String.append_assoc]

/-- The report with a complaint about its problems. -/
def complained (report : Report) : Report :=
  { report with said := report.said ++ complaintText report.pick report.pictures }

theorem complain_eq (report : Report) : complain report = (.ok (), report.complained) :=
  congrArg (Prod.mk _) (foldl_say report.complaint report)

theorem requireClear_eq (message : String) (report : Report) :
    requireClear message report =
      if report.isClear then (.ok (), report)
      else (.error (.notClear (Outburst.render report.pick ++ " " ++ message)),
        report.complained) := by
  change (if !report.isClear then
      complain >>= fun _ =>
        throw (Interruption.notClear (Outburst.render report.pick ++ " " ++ message))
    else pure () : Reporting Unit) report = _
  cases report.isClear with
  | true => rfl
  | false => exact bind_of_ok (complain_eq report)

/-- There is no complaint without a problem. -/
theorem complaintText_nil (pick : Int) : complaintText pick [] = "" := rfl

theorem complained_of_clear {report : Report} (clear : report.isClear = true) :
    report.complained = report := by
  have none_left : report.pictures = [] := List.isEmpty_iff.mp clear
  rw [complained, none_left, complaintText_nil, String.append_empty, ← none_left]

theorem noting_eq_append (program : Program) (report : Report) :
    report.noting program =
      { report with said := report.said ++ noteText report.talkative program } := by
  rw [noting, noteText]
  split
  · rw [say, String.append_assoc]
  · rw [String.append_empty]

end Report

namespace Session

/-- The session with more pictures of problems in its report. -/
def adding (pictures : List Picture) (session : Session) : Session :=
  { session with report := session.report.adding pictures }

theorem onReport_of_ok {α : Type} {work : Reporting α} {session : Session} {value : α}
    {report : Report} (done : work session.report = (.ok value, report)) :
    onReport work session = (.ok value, { session with report := report }) := by
  rw [onReport, done]

theorem onReport_of_error {α : Type} {work : Reporting α} {session : Session}
    {reason : Interruption} {report : Report}
    (broken : work session.report = (.error reason, report)) :
    onReport work session = (.error reason, { session with report := report }) := by
  rw [onReport, broken]

/-- Where parsing is broken off, so is running. -/
theorem runText_of_broken {source : String} {path : Option PathName} {session : Session}
    {reason : Interruption} {report : Report}
    (broken : Report.parse source path session.report = (.error reason, report)) :
    runText source path session = (.error reason, { session with report := report }) :=
  bind_of_error (onReport_of_error broken)

/-- Where parsing gives no program, nothing is run. -/
theorem runText_of_none {source : String} {path : Option PathName} {session : Session}
    {report : Report} (refused : Report.parse source path session.report = (.ok none, report)) :
    runText source path session = (.ok none, { session with report := report }) :=
  bind_of_ok (onReport_of_ok refused)

theorem onReport_add (picture : Picture) (session : Session) :
    onReport (Report.add picture) session =
      (if session.report.limit = some ((session.report.pictures ++ [picture]).length : Int) then
          .error .tooManyIssues
        else .ok (),
        session.adding [picture]) := by
  rw [onReport, Report.add_eq]
  rfl

/-- What is done about the end of a run. -/
def conclude : Outcome (Option Value) → Working (Option Value)
  | .exhausted => do
      onReport Report.addExhausted
      return none
  | .finished (some (.error serial mistake)) => do
      onReport (Report.addMistake mistake.message)
      return some (.error serial mistake)
  | .finished value => return value

/-- A program is run, and then the end of the run is dealt with. -/
theorem execute_eq (text : Program) (session : Session) :
    execute text session =
      conclude (Evaluation.run session.scope text session.store).1
        { session with store := (Evaluation.run session.scope text session.store).2 } := rfl

/-- The value that a run comes to, if there is one. -/
def answerOf : Outcome (Option Value) → Option Value
  | .exhausted => none
  | .finished value => value

/-- The pictures of what is wrong with the end of a run: that it went too deep, or the mistake that
it came to. -/
def problemsOf : Outcome (Option Value) → List Picture
  | .exhausted =>
      [⟨"The program recursed too deeply and exhausted the call stack.", [],
        ["Deep recursion is a resource limit of this interpreter, not a language error."]⟩]
  | .finished (some (.error _ mistake)) => [⟨"ERROR: " ++ mistake.message, [], []⟩]
  | .finished _ => []

theorem problemsOf_of_sound {value : Option Value}
    (sound : ∀ serial mistake, value ≠ some (.error serial mistake)) :
    problemsOf (.finished value) = [] := by
  rcases value with _ | value
  · rfl
  · cases value with
    | error serial mistake => exact absurd rfl (sound serial mistake)
    | _ => rfl

/-- The end of a run is dealt with by reporting its problem, if there is one, before its value is
answered. -/
theorem conclude_cases (outcome : Outcome (Option Value)) :
    (problemsOf outcome = [] ∧ conclude outcome = pure (answerOf outcome)) ∨
      ∃ picture, problemsOf outcome = [picture] ∧
        conclude outcome =
          (onReport (Report.add picture) >>= fun _ => pure (answerOf outcome)) := by
  cases outcome with
  | exhausted => exact .inr ⟨_, rfl, rfl⟩
  | finished value =>
      cases value with
      | none => exact .inl ⟨rfl, rfl⟩
      | some value =>
          cases value with
          | error serial mistake => exact .inr ⟨_, rfl, rfl⟩
          | _ => exact .inl ⟨rfl, rfl⟩

theorem conclude_of_sound {value : Option Value}
    (sound : ∀ serial mistake, value ≠ some (.error serial mistake)) :
    conclude (.finished value) = pure value := by
  obtain ⟨-, conclude_eq⟩ | ⟨picture, some_eq, -⟩ := conclude_cases (.finished value)
  · exact conclude_eq
  · rw [problemsOf_of_sound sound] at some_eq
    cases some_eq

/-- A problem is added and then a value answered, unless work is broken off. -/
theorem add_then (picture : Picture) (value : Option Value) (session : Session) :
    (onReport (Report.add picture) >>= fun _ => pure value : Working _) session =
      (if session.report.limit = some ((session.report.pictures ++ [picture]).length : Int) then
          .error .tooManyIssues
        else .ok value,
        session.adding [picture]) := by
  have added := onReport_add picture session
  split at added
  · rename_i reached
    rw [bind_of_error added, if_pos reached]
  · rename_i below
    rw [bind_of_ok added, if_neg below]
    rfl

theorem adding_nil (session : Session) : session.adding [] = session := by
  rw [adding, Report.adding_nil]

/-- The end of a run changes nothing but the problems reported. -/
theorem snd_conclude (outcome : Outcome (Option Value)) (session : Session) :
    (conclude outcome session).2 = session.adding (problemsOf outcome) := by
  obtain ⟨none_eq, conclude_eq⟩ | ⟨picture, some_eq, conclude_eq⟩ := conclude_cases outcome
  · rw [none_eq, conclude_eq, adding_nil]
    rfl
  · rw [some_eq, conclude_eq, add_then]

/-- Where there is no limit, work is not broken off by the end of a run. -/
theorem conclude_of_unlimited (outcome : Outcome (Option Value)) {session : Session}
    (unlimited : session.report.limit = none) :
    conclude outcome session = (.ok (answerOf outcome), session.adding (problemsOf outcome)) := by
  refine Prod.ext ?_ (snd_conclude outcome session)
  obtain ⟨-, conclude_eq⟩ | ⟨picture, -, conclude_eq⟩ := conclude_cases outcome
  · rw [conclude_eq]
    rfl
  · rw [conclude_eq, add_then, unlimited, if_neg nofun]

/-- Where there is no limit, a program is run to its end, and its problems are reported. -/
theorem execute_of_unlimited (text : Program) {session : Session}
    (unlimited : session.report.limit = none) :
    execute text session =
      (.ok (answerOf (Evaluation.run session.scope text session.store).1),
        adding (problemsOf (Evaluation.run session.scope text session.store).1)
          { session with store := (Evaluation.run session.scope text session.store).2 }) := by
  rw [execute_eq]
  exact conclude_of_unlimited _ unlimited

/-- The text as which a value is shown.  There is none for a mistake. -/
def shownText : Option Value → String
  | none => ""
  | some (.error _ _) => ""
  | some value => value.render ++ "\n"

theorem display_eq (value : Option Value) (session : Session) :
    display value session =
      (.ok (), { session with
        store := { session.store with output := session.store.output ++ shownText value } }) := by
  have unchanged : session = { session with
      store := { session.store with output := session.store.output ++ "" } } := by
    rw [String.append_empty]
  cases value with
  | none => exact congrArg (Prod.mk _) unchanged
  | some value =>
      cases value with
      | error serial mistake => exact congrArg (Prod.mk _) unchanged
      | _ => rfl

theorem shownText_of_sound {value : Option Value}
    (sound : ∀ serial mistake, value ≠ some (.error serial mistake)) :
    shownText value = value.elim "" fun value => value.render ++ "\n" := by
  rcases value with _ | value
  · rfl
  · cases value with
    | error serial mistake => exact absurd rfl (sound serial mistake)
    | _ => rfl

end Session

section Texts

variable {source : String} {parsed : Parsed} (parse_eq : Grammar.parseText source = .ok parsed)
include parse_eq

/-- Nothing but progress is reported on a text without issues. -/
theorem Report.parse_of_clean (clean : parsed.issues = []) (path : Option PathName)
    (report : Report) :
    parse source path report = (.ok (some parsed.program), report.noting parsed.program) := by
  have no_issues : parsed.issues.isEmpty = true := by rw [clean]; rfl
  rw [parse, parse_eq]
  dsimp only
  rw [if_pos no_issues]
  exact congrArg (Prod.mk _) rfl

theorem Report.parse_of_issues (faulty : parsed.issues ≠ []) (path : Option PathName) :
    parse source path =
      (parsed.issues.forM (addIssue source path) >>= fun _ => pure none) := by
  have issues : ¬ parsed.issues.isEmpty = true := by simpa using faulty
  rw [parse, parse_eq]
  dsimp only
  rw [if_neg issues]

/-- A text with issues gives pictures of them and no program, where they do not reach the limit. -/
theorem Report.parse_of_apart (faulty : parsed.issues ≠ []) {report : Report}
    (apart : ∀ count, 0 < count → count ≤ parsed.issues.length → ¬report.ReachesAt count)
    (path : Option PathName) :
    parse source path report =
      (.ok none, report.adding (parsed.issues.map (pictureOf source path))) := by
  rw [parse_of_issues parse_eq faulty, bind_of_ok (forM_addIssue_of_apart apart source path)]
  rfl

theorem Report.parse_of_unlimited (faulty : parsed.issues ≠ []) {report : Report}
    (unlimited : report.limit = none) (path : Option PathName) :
    parse source path report =
      (.ok none, report.adding (parsed.issues.map (pictureOf source path))) :=
  parse_of_apart parse_eq faulty (fun count _ _ => not_reachesAt_of_unlimited unlimited count) path

/-- A text with issues gives pictures of them up to the one that reaches the limit. -/
theorem Report.parse_of_reachesAt {report : Report} {count : Nat}
    (reaches : report.ReachesAt count) (positive : 0 < count)
    (le : count ≤ parsed.issues.length) (path : Option PathName) :
    parse source path report =
      (.error .tooManyIssues,
        report.adding ((parsed.issues.map (pictureOf source path)).take count)) := by
  have faulty : parsed.issues ≠ [] := List.ne_nil_of_length_pos (Nat.lt_of_lt_of_le positive le)
  rw [parse_of_issues parse_eq faulty]
  exact bind_of_error (forM_addIssue_of_reachesAt reaches positive le source path)

namespace Session

/-- Apart from what is noted about progress, a text without issues is run as its program. -/
theorem runText_of_clean (clean : parsed.issues = []) (path : Option PathName)
    (session : Session) :
    runText source path session =
      execute parsed.program
        { session with report := session.report.noting parsed.program } := by
  exact bind_of_ok (onReport_of_ok (Report.parse_of_clean parse_eq clean path session.report))

/-- Nothing is run of a text with issues. -/
theorem runText_of_unlimited (faulty : parsed.issues ≠ []) {session : Session}
    (unlimited : session.report.limit = none) (path : Option PathName) :
    runText source path session =
      (.ok none, session.adding (parsed.issues.map (Report.pictureOf source path))) :=
  runText_of_none (Report.parse_of_unlimited parse_eq faulty unlimited path)

end Session

end Texts

end MarmosetLang
