import MarmosetLang.Proofs.Grammar.Joining
import MarmosetLang.Proofs.Session.Agreement

/-!
# Sessions fed in pieces

A session that is fed a text in two pieces comes to the same end as one that is fed the whole text,
if the first piece ends with a semicolon and leaves no brace open.  Statements are carried out one
after another, and all that the later ones know of the earlier ones is in the store.
-/

namespace MarmosetLang

namespace Evaluation

variable {nested : Evaluator} {scope : ScopeId} {first rest : List Statement}
  {last found : Option Value} {store middle : Store}

/-- After statements that come to no signal the others are carried out. -/
theorem statements_append_of_finished
    (ran : statements nested scope last first store = (.finished found, middle))
    (plain : found.any Value.isSignal = false) :
    statements nested scope last (first ++ rest) store =
      statements nested scope found rest middle := by
  induction first generalizing last store with
  | nil =>
      cases ran
      rfl
  | cons head others ih =>
      rw [List.cons_append, statements]
      rw [statements] at ran
      rcases head_ran : statement nested scope head store with ⟨value | _, later⟩
      · rw [Run.bind_of_finished head_ran] at ran ⊢
        split
        · rename_i signal
          rw [if_pos signal] at ran
          cases ran
          exact absurd signal (Bool.eq_false_iff.mp plain)
        · rename_i no_signal
          rw [if_neg no_signal] at ran
          exact ih ran
      · rw [Run.bind_of_exhausted head_ran] at ran
        exact nomatch ran

/-- A program that begins with statements that come to no signal goes on with the others, if there
are any. -/
theorem program_append_of_finished
    (ran : statements nested scope none first store = (.finished found, middle))
    (plain : found.any Value.isSignal = false) (ne_nil : rest ≠ []) :
    program nested scope ⟨first ++ rest⟩ store = program nested scope ⟨rest⟩ middle := by
  have onwards : statements nested scope none (first ++ rest) store =
      statements nested scope none rest middle := by
    rw [statements_append_of_finished ran plain]
    cases rest with
    | nil => exact absurd rfl ne_nil
    | cons => rfl
  change Run.bind _ _ store = Run.bind _ _ middle
  rw [Run.bind, Run.bind, onwards]

/-- A program that comes to no signal has the value of its last statement. -/
theorem program_of_finished {text : Program}
    (ran : statements nested scope none text.statements store = (.finished found, middle))
    (plain : found.any Value.isSignal = false) :
    program nested scope text store = (.finished found, middle) := by
  refine (Run.bind_of_finished ran).trans ?_
  cases found with
  | none => rfl
  | some value => cases value <;> first | rfl | exact nomatch plain

end Evaluation

namespace Session

/-- Running a program in a session, at the depth that runs are given, comes to its end, and there
neither to a mistake nor to a value that is handed back. -/
def Settles (text : Program) (session : Session) : Prop :=
  ∃ found later,
    Evaluation.statements (Evaluation.evaluate Evaluation.maxDepth) session.scope none
        text.statements session.store = (.finished found, later) ∧
      found.any Value.isSignal = false

/-- Running a program in a session comes to its end before it goes too deep. -/
def Finishes (text : Program) (session : Session) : Prop :=
  ∃ answer, (Evaluation.run session.scope text session.store).1 = .finished answer

variable {session : Session}

section Finished

variable {first rest : List Statement} {found : Option Value} {store : Store}
  (ran : Evaluation.statements (Evaluation.evaluate Evaluation.maxDepth) session.scope none first
    session.store = (.finished found, store))
  (plain : found.any Value.isSignal = false)
include ran plain

theorem runText_of_finished {source : String} {parsed : Parsed}
    (parse_eq : Grammar.parseText source = .ok parsed) (clean : parsed.issues = [])
    (program_eq : parsed.program = ⟨first⟩) (path : Option PathName) :
    ∃ said, runText source path session =
      (.ok found, { session with report := { session.report with said }, store }) := by
  have whole : Evaluation.run session.scope ⟨first⟩ session.store = (.finished found, store) :=
    Evaluation.program_of_finished ran plain
  have sound (serial : Nat) (mistake : Mistake) : found ≠ some (.error serial mistake) := by
    rintro rfl
    exact nomatch plain
  refine ⟨(session.report.noting parsed.program).said, ?_⟩
  rw [runText_of_clean parse_eq clean, Report.noting_eq_said, program_eq, execute_eq]
  dsimp only
  rw [whole, conclude_of_sound sound]
  rfl

/-- After statements that come to no signal the others are carried out in the session. -/
theorem run_append_of_finished (ne_nil : rest ≠ []) :
    Evaluation.run session.scope ⟨first ++ rest⟩ session.store =
      Evaluation.run session.scope ⟨rest⟩ store :=
  Evaluation.program_append_of_finished ran plain ne_nil

theorem execute_append_of_finished (ne_nil : rest ≠ []) :
    execute ⟨first ++ rest⟩ session = execute ⟨rest⟩ { session with store } := by
  rw [execute_eq, execute_eq, run_append_of_finished ran plain ne_nil]

theorem finishes_append_of_finished (ne_nil : rest ≠ []) :
    Finishes ⟨first ++ rest⟩ session ↔ Finishes ⟨rest⟩ { session with store } := by
  rw [Finishes, Finishes, run_append_of_finished ran plain ne_nil]

/-- Texts without issues come to the same end in sessions that agree, if one of them begins with
statements that come to no signal and goes on as the other one, wherever its tokens are. -/
theorem sameEnd_of_finished {whole second : String} {joined later : Parsed} {other : Session}
    (joined_eq : Grammar.parseText whole = .ok joined) (joined_clean : joined.issues = [])
    (later_eq : Grammar.parseText second = .ok later) (later_clean : later.issues = [])
    (program_eq : joined.program = ⟨first ++ rest⟩)
    (text_eq : later.program.erase = (⟨rest⟩ : Program).erase) (ne_nil : rest ≠ [])
    (agree : other.Agree { session with store }) (path : Option PathName) :
    SameEnd (runText second path other) (runText whole path session) := by
  have continued : execute joined.program
      { session with report := session.report.noting joined.program } =
        execute ⟨rest⟩ { session with report := session.report.noting joined.program, store } := by
    rw [program_eq]
    exact execute_append_of_finished ran plain ne_nil
  rw [runText_of_clean later_eq later_clean, runText_of_clean joined_eq joined_clean, continued]
  exact (agree.noting later.program joined.program).execute text_eq

end Finished

/-- In sessions that agree, a program ends in both or in neither, wherever its tokens are. -/
theorem Agree.finishes_iff {other : Session} (agree : session.Agree other) {text copy : Program}
    (text_eq : text.erase = copy.erase) : Finishes text session ↔ Finishes copy other :=
  agree.finishesWithin_iff text_eq Evaluation.maxDepth

/-- A text that ends with a semicolon and leaves no brace open may be run on its own before the
rest. -/
theorem runText_append {first : String} {parsed : Parsed}
    (parse_eq : Grammar.parseText first = .ok parsed) (clean : parsed.issues = [])
    (last : (Token.scan first).getLast?.map Token.kind = some .semicolon)
    (balanced : (Token.scan first).countP (·.kind = .openBrace) =
      (Token.scan first).countP (·.kind = .closeBrace))
    {second : String}
    (short : ∀ token ∈ Token.scan second, token.kind = .integer →
      token.literal.length ≤ Grammar.maxDigits) :
    ∃ later joined,
      Grammar.parseText second = .ok later ∧ Grammar.parseText (first ++ second) = .ok joined ∧
        joined.program.statements = parsed.program.statements ++
          Statement.relocateAll (first.length + ·) later.program.statements ∧
        joined.issues = later.issues.map (Issue.relocate (first.length + ·)) ∧
        (later.issues = [] → later.program.statements ≠ [] →
          ∀ (path : Option PathName) (session : Session), Settles parsed.program session →
            (Finishes later.program (runText first path session).2 ↔
                Finishes joined.program session) ∧
              SameEnd ((do let _ ← runText first path; runText second path : Working _) session)
                (runText (first ++ second) path session)) := by
  have short_stream : (Stream.ofText second).Short := short
  obtain ⟨later, later_eq⟩ : ∃ later, Grammar.parseText second = .ok later :=
    Grammar.exists_parse_eq short_stream
  have concluded : Token.Concluded (Token.scan first) := by
    intro token member
    rw [Option.mem_def.mp member] at last
    exact Option.some.inj last
  have flat : Token.depth (Token.scan first) ≤ 0 := by
    rw [Token.depth_eq_countP, balanced]
    omega
  have joined_eq := Grammar.parseText_append parse_eq clean concluded flat second
  rw [later_eq] at joined_eq
  refine ⟨later, _, later_eq, joined_eq, rfl, rfl, ?_⟩
  intro later_clean ne_nil path session settles
  have joined_clean : later.issues.map (Issue.relocate (first.length + ·)) = [] := by
    rw [later_clean, List.map_nil]
  have ne_nil_relocate :
      Statement.relocateAll (first.length + ·) later.program.statements ≠ [] := by
    rw [Statement.relocateAll_eq_map]
    exact mt List.map_eq_nil_iff.mp ne_nil
  obtain ⟨found, store, ran, plain⟩ := settles
  obtain ⟨said, first_eq⟩ := runText_of_finished ran plain parse_eq clean rfl path
  have agree : (runText first path session).2.Agree { session with store } := by
    rw [first_eq]
    exact ⟨rfl, rfl, rfl⟩
  have text_eq : later.program.erase = (later.program.relocate (first.length + ·)).erase :=
    (later.program.erase_relocate _).symm
  constructor
  · exact (agree.finishes_iff text_eq).trans
      (finishes_append_of_finished ran plain ne_nil_relocate).symm
  · rw [first_eq] at agree
    rw [bind_of_ok first_eq]
    exact sameEnd_of_finished ran plain joined_eq joined_clean later_eq later_clean rfl text_eq
      ne_nil_relocate agree path

/-- A session in which nothing has been run and progress is not reported. -/
def quiet : Session :=
  start (Report.empty false none 0)

/-- The program that a binding comes to. -/
def sampleBinding : Program :=
  ⟨[.binding ⟨.letWord, "let", 0⟩ ⟨.identifier, "a", 4⟩
    (.integer ⟨.integer, "2", 8⟩ (Decimal.value "2"))]⟩

/-- The program that a name comes to. -/
def sampleUse : Program :=
  ⟨[.expression ⟨.identifier, "a", 0⟩ (.identifier ⟨.identifier, "a", 0⟩)]⟩

theorem scan_sampleBinding : Token.scan "let a = 2;" =
    [⟨.letWord, "let", 0⟩, ⟨.identifier, "a", 4⟩, ⟨.assign, "=", 6⟩, ⟨.integer, "2", 8⟩,
      ⟨.semicolon, ";", 9⟩] := by
  decide +kernel

theorem scan_sampleUse : Token.scan "a;" =
    [⟨.identifier, "a", 0⟩, ⟨.semicolon, ";", 1⟩] := by
  decide +kernel

theorem parseText_sampleBinding :
    Grammar.parseText "let a = 2;" = .ok ⟨sampleBinding, [], 0⟩ := by
  refine Grammar.parseText_of_spelled ?_
  have two : Spelled
      (.expression Grammar.lowest (.integer ⟨.integer, "2", 8⟩ (Decimal.value "2")))
      [⟨.integer, "2", 8⟩, ⟨.semicolon, ";", 9⟩] [⟨.semicolon, ";", 9⟩] :=
    .ungrouped (by decide) (.integer rfl (by decide +kernel) (by decide +kernel))
  rw [scan_sampleBinding]
  exact .statements (.binding rfl rfl rfl two (.semicolon rfl)) .noStatements

theorem parseText_sampleUse : Grammar.parseText "a;" = .ok ⟨sampleUse, [], 0⟩ := by
  refine Grammar.parseText_of_spelled ?_
  have name : Spelled (.expression Grammar.lowest (.identifier ⟨.identifier, "a", 0⟩))
      [⟨.identifier, "a", 0⟩, ⟨.semicolon, ";", 1⟩] [⟨.semicolon, ";", 1⟩] :=
    .ungrouped (by decide) (.identifier rfl)
  rw [scan_sampleUse]
  exact .statements (.standing name (.semicolon rfl)) .noStatements

theorem settles_sampleBinding : Settles sampleBinding quiet := by
  have evaluated : Evaluation.evaluate Evaluation.maxDepth
      (.integer ⟨.integer, "2", 8⟩ (Decimal.value "2")) quiet.scope quiet.store =
      (.finished (.integer 0 (Decimal.value "2")), quiet.store.fresh.2) := by
    change Evaluation.evaluate (99999 + 1) _ _ _ = _
    rw [Evaluation.evaluate_succ]
    rfl
  have carried_out := (Run.bind_of_finished evaluated :
    Evaluation.statement _ _ (.binding ⟨.letWord, "let", 0⟩ ⟨.identifier, "a", 4⟩ _) _ = _)
  exact ⟨none, _, Run.bind_of_finished carried_out, rfl⟩

theorem runText_append_sample :
    Settles sampleBinding quiet ∧
      ∃ later joined,
        Grammar.parseText "a;" = .ok later ∧ Grammar.parseText ("let a = 2;" ++ "a;") = .ok joined ∧
          (Finishes later.program (runText "let a = 2;" none quiet).2 ↔
            Finishes joined.program quiet) ∧
          SameEnd ((do let _ ← runText "let a = 2;" none; runText "a;" none : Working _) quiet)
            (runText ("let a = 2;" ++ "a;") none quiet) := by
  have last : (Token.scan "let a = 2;").getLast?.map Token.kind = some .semicolon := by
    rw [scan_sampleBinding]
    rfl
  have balanced : (Token.scan "let a = 2;").countP (·.kind = .openBrace) =
      (Token.scan "let a = 2;").countP (·.kind = .closeBrace) := by
    rw [scan_sampleBinding]
    rfl
  have short : ∀ token ∈ Token.scan "a;", token.kind = .integer →
      token.literal.length ≤ Grammar.maxDigits := by
    rw [scan_sampleUse]
    decide
  obtain ⟨later, joined, later_eq, joined_eq, -, -, same⟩ :=
    runText_append parseText_sampleBinding rfl last balanced short
  obtain rfl := Except.ok.inj (later_eq.symm.trans parseText_sampleUse)
  exact ⟨settles_sampleBinding, _, joined, later_eq, joined_eq,
    same rfl nofun none quiet settles_sampleBinding⟩

end Session
end MarmosetLang
