import MarmosetLang.Proofs.Evaluation.Displacement
import MarmosetLang.Proofs.Session.Reporting

/-!
# Sessions that agree

Two sessions agree if they differ in nothing but the places of tokens and what has been said about
progress.  Carrying out a program in one of them and the same program, perhaps with its tokens at
other places, in the other one leaves them in agreement, with answers that agree.
-/

namespace MarmosetLang

/-- A mistake holds no tokens. -/
theorem Value.map_erase_eq_error_iff {value : Option Value} {serial : Nat} {mistake : Mistake} :
    value.map Value.erase = some (.error serial mistake) ↔
      value = some (.error serial mistake) := by
  cases value with
  | none => exact iff_of_false nofun nofun
  | some value => cases value <;> simp [Value.erase, Value.relocate]

namespace Session

/-- Two sessions differ in nothing but the places of tokens and what has been said. -/
structure Agree (session other : Session) : Prop where
  /-- Texts are run in the same scope. -/
  scope_eq : session.scope = other.scope
  /-- The stores are the same up to the places of tokens. -/
  store_eq : session.store.erase = other.store.erase
  /-- The reports are the same but for what has been said. -/
  report_eq : { session.report with said := "" } = { other.report with said := "" }

/-- Two pieces of work have come to the same end, with the same value up to the places of tokens or
broken off for the same reason, with the same text printed, and have left sessions that agree. -/
structure SameEnd (result other : Except Interruption (Option Value) × Session) : Prop where
  /-- The answers are the same up to the places of tokens. -/
  answer_eq : result.1.map (Option.map Value.erase) = other.1.map (Option.map Value.erase)
  /-- The same text has been printed. -/
  output_eq : result.2.store.output = other.2.store.output
  /-- The sessions agree. -/
  agree : result.2.Agree other.2

variable {session other : Session}

/-- Sessions that agree still do when programs have been noted in them. -/
theorem Agree.noting (agree : session.Agree other) (text copy : Program) :
    Agree { session with report := session.report.noting text }
      { other with report := other.report.noting copy } := by
  rw [Report.noting_eq_said text, Report.noting_eq_said copy]
  exact ⟨agree.scope_eq, agree.store_eq, agree.report_eq⟩

theorem Agree.sameEnd (agree : session.Agree other)
    {answer copy : Except Interruption (Option Value)}
    (answer_eq : answer.map (Option.map Value.erase) = copy.map (Option.map Value.erase)) :
    SameEnd (answer, session) (copy, other) where
  answer_eq := answer_eq
  output_eq := by
    have erased := congrArg Store.output agree.store_eq
    exact erased
  agree := agree

/-- The same problem comes up on both sides, and the same values are answered if work goes on. -/
theorem Agree.add (agree : session.Agree other) (picture : Picture) {value copy : Option Value}
    (value_eq : value.map Value.erase = copy.map Value.erase) :
    SameEnd ((onReport (Report.add picture) >>= fun _ => pure value : Working _) session)
      ((onReport (Report.add picture) >>= fun _ => pure copy : Working _) other) := by
  have pictures_eq := congrArg Report.pictures agree.report_eq
  have limit_eq := congrArg Report.limit agree.report_eq
  dsimp only at pictures_eq limit_eq
  have later_agree : (session.adding [picture]).Agree (other.adding [picture]) :=
    ⟨agree.scope_eq, agree.store_eq, congrArg (Report.adding [picture]) agree.report_eq⟩
  rw [add_then, add_then, ← limit_eq, ← pictures_eq]
  refine later_agree.sameEnd ?_
  split
  · rfl
  · exact congrArg Except.ok value_eq

theorem Agree.conclude (agree : session.Agree other) {outcome copy : Outcome (Option Value)}
    (outcome_eq : outcome.map (Option.map Value.erase) = copy.map (Option.map Value.erase)) :
    SameEnd (Session.conclude outcome session) (Session.conclude copy other) := by
  cases outcome with
  | exhausted =>
      cases copy with
      | exhausted => exact agree.add _ rfl
      | finished => exact nomatch outcome_eq
  | finished answer =>
      cases copy with
      | exhausted => exact nomatch outcome_eq
      | finished other_answer =>
          have answer_eq := Outcome.finished.inj outcome_eq
          by_cases mistaken : ∃ serial mistake, answer = some (.error serial mistake)
          · obtain ⟨serial, mistake, rfl⟩ := mistaken
            obtain rfl := Value.map_erase_eq_error_iff.mp answer_eq.symm
            exact agree.add _ rfl
          · rw [not_exists] at mistaken
            have sound (serial : Nat) (mistake : Mistake) :
                answer ≠ some (.error serial mistake) := not_exists.mp (mistaken serial) mistake
            have other_sound (serial : Nat) (mistake : Mistake) :
                other_answer ≠ some (.error serial mistake) := by
              rintro rfl
              exact sound serial mistake (Value.map_erase_eq_error_iff.mp answer_eq)
            rw [conclude_of_sound sound, conclude_of_sound other_sound]
            exact agree.sameEnd (congrArg Except.ok answer_eq)

/-- A program comes to the same end in sessions that agree, wherever its tokens are. -/
theorem Agree.execute (agree : session.Agree other) {text copy : Program}
    (text_eq : text.erase = copy.erase) :
    SameEnd (Session.execute text session) (Session.execute copy other) := by
  have same := Evaluation.program_eq_of_erase text_eq agree.store_eq Evaluation.maxDepth
    session.scope
  rw [execute_eq, execute_eq, ← agree.scope_eq]
  refine Agree.conclude ⟨?_, ?_, ?_⟩ same.1
  · rfl
  · exact same.2
  · exact agree.report_eq

/-- Running a program in a session comes to its end without going deeper than a number of levels. -/
def FinishesWithin (depth : Nat) (text : Program) (session : Session) : Prop :=
  ∃ answer, (Evaluation.program (Evaluation.evaluate depth) session.scope text session.store).1 =
    .finished answer

/-- In sessions that agree, a program ends within a depth in both or in neither, wherever its tokens
are. -/
theorem Agree.finishesWithin_iff (agree : session.Agree other) {text copy : Program}
    (text_eq : text.erase = copy.erase) (depth : Nat) :
    FinishesWithin depth text session ↔ FinishesWithin depth copy other := by
  have same := Evaluation.program_eq_of_erase text_eq agree.store_eq depth session.scope
  rw [FinishesWithin, FinishesWithin, ← agree.scope_eq]
  exact Outcome.finishes_iff same.1

end Session
end MarmosetLang
