import MarmosetLang.Dialogue
import MarmosetLang.Proofs.Evaluation.Output
import MarmosetLang.Proofs.Grammar.Numerals
import MarmosetLang.Proofs.Session.Reporting

/-!
# Faulty lines in dialogues

A line with issues leaves a dialogue as if it had never been there, apart from the prompt that it
answers and the complaint about it.  Nothing of it is run, and the report is clear again before the
next prompt.  What has been written by then makes no difference to the lines that follow.
-/

namespace MarmosetLang

namespace Session

/-- The session with other texts in the place of those written so far. -/
def written (printed said : String) (session : Session) : Session where
  report := { session.report with said := said }
  store := { session.store with output := printed }
  scope := session.scope

/-- Whatever has been written in a session before, work in it comes to its end, writes more text
behind that, and leaves a session of its own. -/
def Leads (work : Working Unit) (session : Session) (printed said : String) (later : Session) :
    Prop :=
  ∀ before told, work (session.written before told) =
    (.ok (), later.written (before ++ printed) (told ++ said))

/-- Work has come to its end, and these texts have been written by then. -/
structure Writes (result : Except Interruption Unit × Session) (output said : String) : Prop where
  /-- It has not been broken off. -/
  ended : result.1 = .ok ()
  /-- The text that has been printed. -/
  output_eq : result.2.store.output = output
  /-- The text that has been said. -/
  said_eq : result.2.report.said = said

namespace Leads

variable {work next : Working Unit} {session middle later : Session}
  {printed said more_printed more_said : String}

theorem pure (session : Session) : Leads (pure ()) session "" "" session := by
  intro before told
  rw [String.append_empty, String.append_empty]
  rfl

theorem write (text : String) (session : Session) :
    Leads (Session.write text) session text "" session := by
  intro before told
  rw [String.append_empty]
  rfl

theorem bind (first : Leads work session printed said middle)
    (second : Leads next middle more_printed more_said later) :
    Leads (work >>= fun _ => next) session (printed ++ more_printed) (said ++ more_said)
      later := by
  intro before told
  rw [bind_of_ok (first before told), second, String.append_assoc, String.append_assoc]

/-- In a session in which nothing has been written, work writes just its own texts. -/
theorem writes {talkative : Bool} {limit : Option Int} {pick : Int}
    (leads : Leads work (start (Report.empty talkative limit pick)) printed said later) :
    Writes (work (start (Report.empty talkative limit pick))) printed said := by
  have ran := leads "" ""
  rw [String.empty_append, String.empty_append] at ran
  exact ⟨congrArg Prod.fst ran, congrArg (fun result => result.2.store.output) ran,
    congrArg (fun result => result.2.report.said) ran⟩

end Leads

/-- A session is ready for a line: no problem is left from earlier ones, none will be too many, and
complaints begin with a given outburst. -/
structure Ready (session : Session) (pick : Int) : Prop where
  clear : session.report.pictures = []
  unlimited : session.report.limit = none
  pick_eq : session.report.pick = pick

end Session

namespace Dialogue

open Session

variable {line : String} {session : Session} {pick : Int}

/-- The session with its problems complained of and forgotten. -/
def settled (session : Session) : Session :=
  { session with report := { session.report.complained with pictures := [] } }

theorem settle_eq (session : Session) :
    (if !session.report.isClear then
        onReport Report.complain >>= fun _ => onReport Report.reset
      else pure () : Working Unit) session = (.ok (), settled session) := by
  cases clear : session.report.isClear with
  | true =>
      have none_left : session.report.pictures = [] := List.isEmpty_iff.mp clear
      rw [settled, Report.complained_of_clear clear, ← none_left]
      rfl
  | false => exact bind_of_ok (onReport_of_ok (Report.complain_eq session.report))

/-- After a line has been run its value is shown, and its problems are complained of and
forgotten. -/
theorem answer_of_runText {value : Option Value} {middle : Session}
    (ran : runText line none session = (.ok value, middle)) :
    answer line session =
      (.ok (), settled { middle with
        store := { middle.store with output := middle.store.output ++ shownText value } }) := by
  refine (bind_of_ok ran).trans ?_
  refine (bind_of_ok (display_eq value middle)).trans ?_
  exact settle_eq _

/-- A line with issues leads back to the same session.  Nothing is printed, and a complaint about
its issues is said. -/
theorem leads_answer_of_issues {parsed : Parsed}
    (parse_eq : Grammar.parseText line = .ok parsed) (faulty : parsed.issues ≠ [])
    (ready : session.Ready pick) :
    Leads (answer line) session ""
      (Report.complaintText pick (parsed.issues.map (Report.pictureOf line none))) session := by
  intro before told
  have unlimited : (session.written before told).report.limit = none := ready.unlimited
  rw [answer_of_runText (runText_of_unlimited parse_eq faulty unlimited none)]
  simp only [settled, Report.complained, Session.adding, Report.adding, written, shownText,
    ready.clear, ready.pick_eq, List.nil_append]

/-- A line without issues leads to a session that is ready again. -/
theorem exists_leads_answer_of_clean {parsed : Parsed}
    (parse_eq : Grammar.parseText line = .ok parsed) (clean : parsed.issues = [])
    (ready : session.Ready pick) :
    ∃ printed said later, Leads (answer line) session printed said later ∧ later.Ready pick := by
  obtain ⟨outcome, after, ran⟩ : ∃ outcome after,
      Evaluation.run session.scope parsed.program { session.store with output := "" } =
        (outcome, after) := ⟨_, _, rfl⟩
  refine ⟨after.output ++ shownText (answerOf outcome),
    Report.noteText session.report.talkative parsed.program ++
      Report.complaintText session.report.pick (problemsOf outcome),
    { session with store := after }, fun before told => ?_,
    ready.clear, ready.unlimited, ready.pick_eq⟩
  have behind := Evaluation.run_behind before session.scope parsed.program
    { session.store with output := "" }
  rw [ran] at behind
  have executed : runText line none (session.written before told) =
      (.ok (answerOf outcome), Session.adding (problemsOf outcome)
        { report := (session.written before told).report.noting parsed.program
          store := after.behind before
          scope := session.scope }) := by
    have unlimited : ((session.written before told).report.noting parsed.program).limit = none := by
      rw [Report.noting_eq_said]
      exact ready.unlimited
    have store_eq : (session.written before told).store =
        Store.behind before { session.store with output := "" } := by
      rw [Store.behind, String.append_empty]
      rfl
    rw [runText_of_clean parse_eq clean, execute_of_unlimited _ unlimited, store_eq]
    dsimp only [written]
    rw [behind]
  rw [answer_of_runText executed]
  simp only [settled, Report.complained, Session.adding, Report.adding, Report.noting_eq_append,
    written, Store.behind, ready.clear, List.nil_append, String.append_assoc]

/-- A line without a long numeral leads to a session that is ready again. -/
theorem exists_leads_answer (short : (Stream.ofText line).Short) (ready : session.Ready pick) :
    ∃ printed said later, Leads (answer line) session printed said later ∧ later.Ready pick := by
  obtain ⟨parsed, parse_eq⟩ : ∃ parsed, Grammar.parseText line = .ok parsed :=
    Grammar.exists_parse_eq short
  by_cases clean : parsed.issues = []
  · exact exists_leads_answer_of_clean parse_eq clean ready
  · exact ⟨_, _, session, leads_answer_of_issues parse_eq clean ready, ready⟩

/-! ## Many lines -/

/-- Ask for lines and answer them, without asking for more. -/
def proceed : List String → Working Unit
  | [] => pure ()
  | line :: others => do
      write prompt
      answer line
      proceed others

theorem hold_append (front rest : List String) :
    hold (front ++ rest) = proceed front >>= fun _ => hold rest := by
  induction front with
  | nil => rw [List.nil_append, proceed, pure_bind]
  | cons line others ih =>
      rw [List.cons_append, hold, proceed, ih]
      simp only [bind_assoc]

/-- Lines without long numerals lead from prompt to prompt. -/
theorem exists_leads_proceed {lines : List String}
    (short : ∀ line ∈ lines, (Stream.ofText line).Short) (ready : session.Ready pick) :
    ∃ printed said later, Leads (proceed lines) session printed said later ∧ later.Ready pick := by
  induction lines generalizing session with
  | nil => exact ⟨"", "", session, .pure session, ready⟩
  | cons line others ih =>
      rw [List.forall_mem_cons] at short
      obtain ⟨_, _, middle, answered, middle_ready⟩ := exists_leads_answer short.1 ready
      obtain ⟨_, _, later, proceeded, later_ready⟩ := ih short.2 middle_ready
      exact ⟨_, _, later, (Leads.write prompt session).bind (answered.bind proceeded), later_ready⟩

/-- Lines without long numerals lead to the end of a dialogue. -/
theorem exists_leads_hold {lines : List String}
    (short : ∀ line ∈ lines, (Stream.ofText line).Short) (ready : session.Ready pick) :
    ∃ printed said later, Leads (hold lines) session printed said later ∧ later.Ready pick := by
  obtain ⟨_, _, later, proceeded, later_ready⟩ := exists_leads_proceed short ready
  have ended : Leads (hold []) later (prompt ++ "\n") "" later := .write _ later
  rw [← List.append_nil lines, hold_append]
  exact ⟨_, _, later, proceeded.bind ended, later_ready⟩

/-! ## Inputs -/

/-- A text is a complete line. -/
def IsLine (line : String) : Prop :=
  ∃ body, '\n' ∉ body ∧ line.toList = body ++ ['\n']

theorem splitFeeds_append {body : List Char} (no_feed : '\n' ∉ body) (rest : List Char) :
    Line.splitFeeds (body ++ '\n' :: rest) = (body ++ ['\n']) :: Line.splitFeeds rest := by
  induction body with
  | nil => rw [List.nil_append, Line.splitFeeds, if_pos rfl, List.nil_append]
  | cons first others ih =>
      rw [List.mem_cons, not_or] at no_feed
      rw [List.cons_append, Line.splitFeeds, if_neg (Ne.symm no_feed.1), ih no_feed.2]
      rfl

theorem lines_append {line : String} (complete : IsLine line) (rest : String) :
    lines (line ++ rest) = line :: lines rest := by
  obtain ⟨body, no_feed, line_eq⟩ := complete
  have text_eq : (line ++ rest).toList = body ++ '\n' :: rest.toList := by
    rw [String.toList_append, line_eq, List.append_assoc]
    rfl
  rw [lines, text_eq, splitFeeds_append no_feed, List.map_cons, ← line_eq, String.ofList_toList]
  rfl

/-- Complete lines are found again in an input that begins with them. -/
theorem lines_join_append {front : List String} (complete : ∀ line ∈ front, IsLine line)
    (rest : String) : lines (String.join front ++ rest) = front ++ lines rest := by
  induction front with
  | nil => rw [String.join_nil, String.empty_append, List.nil_append]
  | cons line others ih =>
      rw [List.forall_mem_cons] at complete
      rw [String.join_cons, String.append_assoc, lines_append complete.1, ih complete.2,
        List.cons_append]

/-- A complete line with issues leaves a dialogue as if it had never been there.  What is written
without it is written with it, but for one more prompt after what the lines before have printed, and
the complaint about its issues after what they have said.  At every prompt the report is clear. -/
theorem hold_insert_faulty (talkative : Bool) (pick : Int) {before : List String}
    {faulty after : String} (complete : ∀ line ∈ before, IsLine line) (whole : IsLine faulty)
    (short : ∀ line ∈ before ++ lines after, ∀ token ∈ Token.scan line, token.kind = .integer →
      token.literal.length ≤ Grammar.maxDigits)
    {parsed : Parsed} (parse_eq : Grammar.parseText faulty = .ok parsed)
    (issues : parsed.issues ≠ []) :
    let start := Session.start (Report.empty talkative none pick)
    let complaint := Report.complaintText pick (parsed.issues.map (Report.pictureOf faulty none))
    ∃ printed said more_printed more_said : String,
      Writes (hold (lines (String.join before)) start) (printed ++ prompt ++ "\n") said ∧
      Writes (hold (lines (String.join before ++ after)) start) (printed ++ more_printed)
        (said ++ more_said) ∧
      Writes (hold (lines (String.join before ++ (faulty ++ after))) start)
        (printed ++ prompt ++ more_printed) (said ++ complaint ++ more_said) ∧
      ∀ front rest, front ++ rest = lines (String.join before ++ after) ∨
          front ++ rest = lines (String.join before ++ (faulty ++ after)) →
        ∃ later, proceed front start = (.ok (), later) ∧
          hold (front ++ rest) start = hold rest later ∧ later.report.isClear = true := by
  intro start complaint
  have start_ready : start.Ready pick := ⟨rfl, rfl, rfl⟩
  have faulty_short : (Stream.ofText faulty).Short := Grammar.short_of_parse parse_eq
  rw [List.forall_mem_append] at short
  obtain ⟨printed, said, middle, first, middle_ready⟩ := exists_leads_proceed short.1 start_ready
  obtain ⟨more_printed, more_said, later, second, -⟩ := exists_leads_hold short.2 middle_ready
  have answered := leads_answer_of_issues parse_eq issues middle_ready
  have asked : Leads (hold (faulty :: lines after)) middle _ _ later :=
    (Leads.write prompt middle).bind (answered.bind second)
  have lines_eq (rest : String) : lines (String.join before ++ rest) = before ++ lines rest :=
    lines_join_append complete rest
  refine ⟨printed, said, more_printed, more_said, ?_, ?_, ?_, fun front rest split => ?_⟩
  · have ended : Leads (hold []) middle (prompt ++ "\n") "" middle := .write _ middle
    have lines_alone := lines_eq ""
    have all_printed := (first.bind ended).writes
    rw [String.append_empty] at lines_alone all_printed
    rw [lines_alone, hold_append, String.append_assoc]
    exact all_printed
  · rw [lines_eq, hold_append]
    exact (first.bind second).writes
  · have all_printed := (first.bind asked).writes
    rw [lines_eq, lines_append whole, hold_append]
    simpa only [String.empty_append, String.append_assoc] using all_printed
  · have all_short : ∀ line ∈ front ++ rest, (Stream.ofText line).Short := by
      rcases split with split | split
      · rw [split, lines_eq, List.forall_mem_append]
        exact short
      · rw [split, lines_eq, lines_append whole, List.forall_mem_append, List.forall_mem_cons]
        exact ⟨short.1, faulty_short, short.2⟩
    obtain ⟨_, _, later, proceeded, ready⟩ :=
      exists_leads_proceed (List.forall_mem_append.mp all_short).1 start_ready
    have ran := proceeded "" ""
    refine ⟨_, ran, ?_, ?_⟩
    · rw [hold_append]
      exact bind_of_ok ran
    · change later.report.pictures.isEmpty = true
      rw [ready.clear]
      rfl

theorem scan_oversized : Token.scan "9223372036854775808\n" =
    [⟨.integer, "9223372036854775808", 0⟩] := by
  decide +kernel

/-- A text with an issue, which is that its numeral is too large. -/
theorem exists_parse_oversized :
    ∃ parsed, Grammar.parseText "9223372036854775808\n" = .ok parsed ∧ parsed.issues ≠ [] := by
  have tokens_eq : (Stream.ofText "9223372036854775808\n").tokens =
      [⟨.integer, "9223372036854775808", 0⟩] := scan_oversized
  have short : (Stream.ofText "9223372036854775808\n").Short := by
    rw [Stream.Short, tokens_eq]
    decide +kernel
  have member : ⟨.integer, "9223372036854775808", 0⟩ ∈
      (Stream.ofText "9223372036854775808\n").tokens := by
    rw [tokens_eq]
    exact List.mem_singleton.mpr rfl
  obtain ⟨parsed, parse_eq, issue, issue_mem, -⟩ :=
    Grammar.exists_parse_of_oversized short member rfl (by decide +kernel)
  exact ⟨parsed, parse_eq, List.ne_nil_of_mem issue_mem⟩

theorem hold_insert_faulty_sample :
    (∀ line ∈ ["let a = 1;\n"], IsLine line) ∧ IsLine "9223372036854775808\n" ∧
      (∀ line ∈ ["let a = 1;\n"] ++ lines "a", ∀ token ∈ Token.scan line, token.kind = .integer →
        token.literal.length ≤ Grammar.maxDigits) ∧
      ∃ parsed, Grammar.parseText "9223372036854775808\n" = .ok parsed ∧ parsed.issues ≠ [] ∧
        ∃ printed said more_printed more_said : String,
          Writes (hold ["let a = 1;\n", "a"] (start (Report.empty true none 7)))
            (printed ++ more_printed) (said ++ more_said) ∧
          Writes (hold ["let a = 1;\n", "9223372036854775808\n", "a"]
              (start (Report.empty true none 7)))
            (printed ++ prompt ++ more_printed)
            (said ++ Report.complaintText 7
                (parsed.issues.map (Report.pictureOf "9223372036854775808\n" none)) ++
              more_said) := by
  have complete : ∀ line ∈ ["let a = 1;\n"], IsLine line :=
    List.forall_mem_singleton.mpr ⟨"let a = 1;".toList, by decide, rfl⟩
  have whole : IsLine "9223372036854775808\n" :=
    ⟨"9223372036854775808".toList, by decide, rfl⟩
  have short : ∀ line ∈ ["let a = 1;\n"] ++ lines "a", ∀ token ∈ Token.scan line,
      token.kind = .integer → token.literal.length ≤ Grammar.maxDigits := by
    decide +kernel
  obtain ⟨parsed, parse_eq, issues⟩ := exists_parse_oversized
  obtain ⟨printed, said, more_printed, more_said, -, without, within, -⟩ :=
    hold_insert_faulty true 7 complete whole short parse_eq issues
  exact ⟨complete, whole, short, parsed, parse_eq, issues, printed, said, more_printed, more_said,
    without, within⟩

end Dialogue
end MarmosetLang
