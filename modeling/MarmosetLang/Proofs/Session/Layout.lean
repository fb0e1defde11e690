import MarmosetLang.Proofs.Grammar.Layout
import MarmosetLang.Proofs.Session.Pieces

/-!
# Sessions do not look at layout

Texts that differ in layout only come to programs that differ in the places of tokens only.  Running
either of them in a session shows the same to everyone who watches it: the same value, the same text
printed, the same report and the same names bound.
-/

namespace MarmosetLang

namespace Store

/-- The names bound in each scope, in the order in which they were bound first. -/
def names (store : Store) : Array (List String) :=
  store.scopes.map fun scope => scope.bindings.map Prod.fst

variable (move : Nat → Nat)

theorem map_fst_relocate (scope : Scope) :
    (scope.relocate move).bindings.map Prod.fst = scope.bindings.map Prod.fst := by
  simp [Scope.relocate, Function.comp_def]

theorem names_relocate (store : Store) : (store.relocate move).names = store.names := by
  rw [names, names, relocate, Array.map_map]
  exact congrArg (Array.map · _) (funext fun scope => map_fst_relocate move scope)

theorem describe_relocate (store : Store) (place : ScopeId) :
    (store.relocate move).describe place = store.describe place := by
  rw [describe, describe, Array.getD_eq_getD_getElem?, Array.getD_eq_getD_getElem?,
    getElem?_relocate]
  cases store.scopes[place]? with
  | none => rfl
  | some scope =>
      change (scope.relocate move).render = scope.render
      -- Stating the equation of `render` would compare long texts.
      delta Scope.render
      rw [map_fst_relocate]
      rfl

end Store

/-- Places of tokens make no difference to what is noted on a program. -/
theorem Report.noting_eq_of_erase {text other : Program} (text_eq : text.erase = other.erase)
    (report : Report) : report.noting text = report.noting other := by
  have length_eq := congrArg (fun text : Program => text.statements.length) text_eq
  simp only [Program.erase, Program.relocate, Statement.relocateAll_eq_map, List.length_map]
    at length_eq
  rw [noting, noting, length_eq]

namespace Session

/-- Two pieces of work look alike from outside: the values are displayed alike or there are none,
the same text has been printed and the same problems reported, and the same names are bound. -/
structure LookAlike (result other : Except Interruption (Option Value) × Session) : Prop where
  /-- The answers are displayed alike, or broken off for the same reason. -/
  answer_eq : result.1.map (Option.map Value.render) = other.1.map (Option.map Value.render)
  /-- The same text has been printed. -/
  output_eq : result.2.store.output = other.2.store.output
  /-- The reports are the same. -/
  report_eq : result.2.report = other.2.report
  /-- The next texts are run in the same scope. -/
  scope_eq : result.2.scope = other.2.scope
  /-- The same names are bound. -/
  names_eq : result.2.store.names = other.2.store.names
  /-- Scopes are described alike. -/
  describe_eq : result.2.store.describe = other.2.store.describe

/-- Work that comes to the same end looks alike if the same has been said. -/
theorem SameEnd.lookAlike {result other : Except Interruption (Option Value) × Session}
    (same : SameEnd result other) (said_eq : result.2.report.said = other.2.report.said) :
    LookAlike result other where
  answer_eq := by
    have render_eq : Value.render = Value.render ∘ Value.erase :=
      funext fun value => value.render_erase.symm
    have shown (answer : Except Interruption (Option Value)) :
        answer.map (Option.map Value.render) =
          (answer.map (Option.map Value.erase)).map (Option.map Value.render) := by
      rw [render_eq]
      rcases answer with reason | _ | value <;> simp [Except.map, Value.render_erase]
    rw [shown, same.answer_eq, ← shown]
  output_eq := same.output_eq
  report_eq := by
    have report_eq := congrArg (fun report : Report => { report with said := result.2.report.said })
      same.agree.report_eq
    exact report_eq.trans (by rw [said_eq])
  scope_eq := same.agree.scope_eq
  names_eq := by
    have names_eq := congrArg Store.names same.agree.store_eq
    rwa [Store.erase, Store.erase, Store.names_relocate, Store.names_relocate] at names_eq
  describe_eq := by
    funext place
    have describe_eq := congrArg (Store.describe · place) same.agree.store_eq
    rwa [Store.erase, Store.erase, Store.describe_relocate, Store.describe_relocate]
      at describe_eq

/-- Nothing is said while a program is run. -/
theorem said_execute (text : Program) (session : Session) :
    (execute text session).2.report.said = session.report.said := by
  rw [execute_eq, snd_conclude]
  rfl

/-- Texts that differ in layout only are parsed with the same complaints about corresponding tokens.
Their programs are written alike.  If there is nothing to complain of, both of them or neither ends
within any depth, and running them in a session looks alike. -/
theorem lookAlike_of_sameWords {first second : String}
    (same : (Token.scan first).map (fun token => (token.kind, token.literal)) =
      (Token.scan second).map fun token => (token.kind, token.literal))
    (short : ∀ token ∈ Token.scan first, token.kind = .integer →
      token.literal.length ≤ Grammar.maxDigits) :
    ∃ parsed other : Parsed,
      Grammar.parseText first = .ok parsed ∧ Grammar.parseText second = .ok other ∧
        List.Forall₂ (Grammar.SameIssue (.ofText first) (.ofText second)) parsed.issues
          other.issues ∧
        parsed.program.render = other.program.render ∧
        (parsed.issues = [] → ∀ (path otherPath : Option PathName) (session : Session),
          (∀ depth, FinishesWithin depth parsed.program session ↔
            FinishesWithin depth other.program session) ∧
          LookAlike (runText first path session) (runText second otherPath session)) := by
  have same_words : (Stream.ofText first).SameWords (.ofText second) := ⟨same, rfl⟩
  obtain ⟨parsed, first_eq, second_eq, issues⟩ := Grammar.exists_parse_of_sameWords same_words short
  refine ⟨_, _, first_eq, second_eq, issues, ?_, ?_⟩
  · exact (parsed.program.render_relocate _).trans (parsed.program.render_relocate _).symm
  · intro clean path otherPath session
    have other_clean : (parsed.relocate (Stream.ofText second).placeOf).issues = [] := by
      rw [clean] at issues
      exact List.forall₂_nil_left_iff.mp issues
    have text_eq : (parsed.relocate (Stream.ofText first).placeOf).program.erase =
        (parsed.relocate (Stream.ofText second).placeOf).program.erase :=
      (parsed.program.erase_relocate _).trans (parsed.program.erase_relocate _).symm
    have agree (session : Session) : session.Agree session := ⟨rfl, rfl, rfl⟩
    refine ⟨(agree session).finishesWithin_iff text_eq, ?_⟩
    rw [runText_of_clean first_eq clean, runText_of_clean second_eq other_clean,
      Report.noting_eq_of_erase text_eq]
    refine ((agree _).execute text_eq).lookAlike ?_
    rw [said_execute, said_execute]

theorem scan_wideBinding : Token.scan "let\n a=2\t;" =
    [⟨.letWord, "let", 0⟩, ⟨.identifier, "a", 5⟩, ⟨.assign, "=", 6⟩, ⟨.integer, "2", 7⟩,
      ⟨.semicolon, ";", 9⟩] := by
  decide +kernel

theorem lookAlike_of_sameWords_sample :
    (Token.scan "let a = 2;").map (fun token => (token.kind, token.literal)) =
        (Token.scan "let\n a=2\t;").map (fun token => (token.kind, token.literal)) ∧
      ∃ other, Grammar.parseText "let\n a=2\t;" = .ok other ∧ other.issues = [] ∧
        sampleBinding.render = other.program.render ∧
        LookAlike (runText "let a = 2;" none quiet) (runText "let\n a=2\t;" none quiet) := by
  have same : (Token.scan "let a = 2;").map (fun token => (token.kind, token.literal)) =
      (Token.scan "let\n a=2\t;").map fun token => (token.kind, token.literal) := by
    rw [scan_sampleBinding, scan_wideBinding]
    rfl
  have short : ∀ token ∈ Token.scan "let a = 2;", token.kind = .integer →
      token.literal.length ≤ Grammar.maxDigits := by
    rw [scan_sampleBinding]
    decide
  obtain ⟨parsed, other, parsed_eq, other_eq, issues, render_eq, alike⟩ :=
    lookAlike_of_sameWords same short
  obtain rfl := Except.ok.inj (parsed_eq.symm.trans parseText_sampleBinding)
  exact ⟨same, other, other_eq, List.forall₂_nil_left_iff.mp issues, render_eq,
    (alike rfl none none quiet).2⟩

end Session
end MarmosetLang
