import MarmosetLang.Proofs.Evaluation.Tandem
import MarmosetLang.Proofs.Value.Displacement

/-!
# Displaced programs

Evaluation does not look at the places of tokens.  A program with its tokens at other places, run on
a store with its tokens at those places, comes to the same end with its tokens there: it finishes or
goes too deep as before, and the same text is printed.
-/

namespace MarmosetLang

/-- Change the answer of a run that finishes. -/
def Outcome.map {α β : Type} (change : α → β) : Outcome α → Outcome β
  | .finished answer => .finished (change answer)
  | .exhausted => .exhausted

theorem Outcome.finishes_iff {α β : Type} {change : α → β} {outcome other : Outcome α}
    (same : outcome.map change = other.map change) :
    (∃ answer, outcome = .finished answer) ↔ ∃ answer, other = .finished answer := by
  cases outcome <;> cases other <;> simp_all [Outcome.map]

theorem Outcome.map_id {α : Type} (outcome : Outcome α) : outcome.map id = outcome := by
  cases outcome <;> rfl

/-- Where stores go together with changed ones only, and values with copies only, the second side
comes to the same end with its store changed and its value copied. -/
theorem Tandem.Together.eq_map {tandem : Tandem} {home : ScopeId} {world : tandem.World}
    {change : Store → Store} {copy : Value → Value} {result other : Outcome (Option Value) × Store}
    (together : tandem.Together home world (fun later => Option.Rel (tandem.Values later)) result
      other)
    (stores_eq : ∀ {later store place}, tandem.Stores later store place → place = change store)
    (value_eq : ∀ {later value place}, tandem.Values later value place → place = copy value) :
    other = (result.1.map (Option.map copy), change result.2) := by
  cases together with
  | @finished _ answer other_answer _ _ _ stores answers =>
      have answer_eq : other_answer = answer.map copy := by
        cases answers with
        | none => rfl
        | some alike => exact congrArg some (value_eq alike)
      rw [stores_eq stores, answer_eq]
      rfl
  | exhausted _ stores =>
      rw [stores_eq stores]
      rfl

namespace Evaluation

/-- Two sides of which the second one has its tokens at other places, and all else in common. -/
def displaced (move : Nat → Nat) : Tandem where
  World := Unit
  move := move
  serials _ := Eq
  scopes _ := Eq
  Stores _ store copy := copy = store.relocate move
  Grows _ _ _ := True
  grows_refl _ _ := trivial
  grows_trans _ _ := trivial
  serials_mono _ same := same
  scopes_mono _ same := same
  one_to_one _ := biUnique_eq
  fresh := by
    rintro world store _ rfl home
    exact ⟨world, trivial, rfl, rfl⟩
  enclose := by
    rintro world store _ outer _ rfl rfl
    rw [Store.enclose_relocate]
    exact ⟨world, rfl, rfl, fun _ _ _ => trivial⟩
  bind := by
    rintro world store _ scope _ value other rfl rfl alike name
    refine ⟨world, trivial, ?_⟩
    rw [alike.eq_relocate, Store.bind_relocate]
  lookup := by
    rintro world store _ scope _ rfl rfl name
    rw [Store.lookup_relocate]
    cases store.lookup name scope with
    | none => exact .none
    | some value => exact .some (value.alike_relocate move)
  print := by
    rintro world store _ rfl home line
    exact ⟨world, trivial, rfl⟩

/-- Running a program with its tokens at other places. -/
theorem program_relocate (move : Nat → Nat) (depth : Nat) (scope : ScopeId) (text : Program)
    (store : Store) :
    program (evaluate depth) scope (text.relocate move) (store.relocate move) =
      ((program (evaluate depth) scope text store).1.map (Option.map (Value.relocate move)),
        (program (evaluate depth) scope text store).2.relocate move) := by
  have together : (displaced move).Together scope ()
      (fun later => Option.Rel ((displaced move).Values later))
      (program (evaluate depth) scope text store)
      (program (evaluate depth) scope (text.relocate move) (store.relocate move)) :=
    keeps_program (steps_evaluate (displaced move) depth) rfl text store _ rfl
  exact together.eq_map (fun stores => stores) fun alike => alike.eq_relocate

end Evaluation

/-- The program without the places of its tokens. -/
def Program.erase (text : Program) : Program :=
  text.relocate fun _ => 0

/-- The value without the places of tokens. -/
def Value.erase (value : Value) : Value :=
  value.relocate fun _ => 0

/-- The store without the places of tokens. -/
def Store.erase (store : Store) : Store :=
  store.relocate fun _ => 0

theorem Program.erase_relocate (move : Nat → Nat) (text : Program) :
    (text.relocate move).erase = text.erase :=
  text.relocate_relocate move _

theorem Value.render_erase (value : Value) : value.erase.render = value.render :=
  value.render_relocate _

namespace Evaluation

/-- Programs that differ only in the places of tokens come to the same end, up to the places of
tokens. -/
theorem program_eq_of_erase {text other : Program} {store copy : Store}
    (text_eq : text.erase = other.erase) (store_eq : store.erase = copy.erase) (depth : Nat)
    (scope : ScopeId) :
    (program (evaluate depth) scope text store).1.map (Option.map Value.erase) =
        (program (evaluate depth) scope other copy).1.map (Option.map Value.erase) ∧
      (program (evaluate depth) scope text store).2.erase =
        (program (evaluate depth) scope other copy).2.erase := by
  have erased := program_relocate (fun _ => 0) depth scope text store
  have other_erased := program_relocate (fun _ => 0) depth scope other copy
  change program _ scope text.erase store.erase = _ at erased
  rw [text_eq, store_eq] at erased
  exact Prod.mk.inj (erased.symm.trans other_erased)

end Evaluation
end MarmosetLang
