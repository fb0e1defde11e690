import MarmosetLang.Proofs.Evaluation.Displacement
import MarmosetLang.Proofs.Evaluation.Sparing

/-!
# Output

Evaluation does not look at what has been printed.  It goes the same way whatever that is, and puts
the same text behind it.
-/

namespace MarmosetLang

/-- The store with more text before what has been printed. -/
def Store.behind (text : String) (store : Store) : Store :=
  { store with output := text ++ store.output }

theorem Store.print_behind (store : Store) (text line : String) :
    (store.behind text).print line = (store.print line).behind text := by
  simp only [behind, print, String.append_assoc]

namespace Value

/-- Where serial numbers, scopes and tokens stand for themselves, a value is alike to itself. -/
theorem alike_self (value : Value) : Alike Eq Eq id value value := by
  have alike := value.alike_relocate id
  rwa [← alike.eq (fun _ _ same => same) fun _ _ same => same] at alike

end Value

namespace Evaluation

/-- Two sides of which the second one has more text before what it has printed. -/
def trailing (text : String) : Tandem where
  World := Unit
  move := id
  serials _ := Eq
  scopes _ := Eq
  Stores _ store copy := copy = store.behind text
  Grows _ _ _ := True
  grows_refl _ _ := trivial
  grows_trans _ _ := trivial
  serials_mono _ same := same
  scopes_mono _ same := same
  one_to_one _ := biUnique_eq
  fresh := by
    rintro world store _ rfl home
    exact ⟨world, trivial, rfl, rfl⟩
  enclose := by
    rintro world store _ outer _ rfl rfl
    exact ⟨world, rfl, rfl, fun _ _ _ => trivial⟩
  bind := by
    rintro world store _ scope _ value other rfl rfl alike name
    rw [alike.eq (fun _ _ same => same) fun _ _ same => same]
    exact ⟨world, trivial, rfl⟩
  lookup := by
    rintro world store _ scope _ rfl rfl name
    have same : (store.behind text).lookup name scope = store.lookup name scope :=
      @Store.lookup_eq_of_below store (store.behind text) scope (fun _ _ => rfl) name
    rw [same]
    cases store.lookup name scope with
    | none => exact .none
    | some value => exact .some value.alike_self
  print := by
    rintro world store _ rfl home line
    exact ⟨world, trivial, store.print_behind text line⟩

/-- A program is run in the same way whatever has been printed before. -/
theorem run_behind (printed : String) (scope : ScopeId) (text : Program) (store : Store) :
    run scope text (store.behind printed) =
      ((run scope text store).1, (run scope text store).2.behind printed) := by
  have together : (trailing printed).Together scope ()
      (fun later => Option.Rel ((trailing printed).Values later))
      (run scope text store) (run scope (text.relocate id) (store.behind printed)) :=
    keeps_program (steps_evaluate (trailing printed) maxDepth) rfl text store _ rfl
  have run_eq : run scope (text.relocate id) (store.behind printed) =
      ((run scope text store).1.map (Option.map id), (run scope text store).2.behind printed) :=
    together.eq_map (fun stores => stores) fun alike =>
      (alike.eq (fun _ _ same => same) fun _ _ same => same).symm
  rwa [text.relocate_id, Option.map_id, Outcome.map_id] at run_eq

end Evaluation
end MarmosetLang
