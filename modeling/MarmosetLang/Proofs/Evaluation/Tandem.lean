import MarmosetLang.Evaluation
import MarmosetLang.Proofs.Value.Alike

/-!
# Runs in tandem

Two runs are set side by side.  The second one is of the same construct, with its tokens perhaps at
other places, in a scope and a store of its own.  What the two sides have in common is kept in a
world, which grows while they go on.  If every single step on stores leaves the two sides with as
much in common as before, then so do all constructs of the language: both sides finish, with alike
values, or both go too deep.
-/

namespace MarmosetLang

/-- Each thing stands for itself only. -/
theorem biUnique_eq {α : Type} : Relator.BiUnique (@Eq α) :=
  ⟨fun _ _ _ first second => first.trans second.symm,
    fun _ _ _ first second => first.symm.trans second⟩

/-- What two sides may have in common, and how it grows from step to step. -/
structure Tandem where
  /-- What the two sides have in common at some time. -/
  World : Type
  /-- Where the second side has its tokens. -/
  move : Nat → Nat
  /-- Which serial numbers stand for which. -/
  serials : World → Nat → Nat → Prop
  /-- Which scopes stand for which. -/
  scopes : World → ScopeId → ScopeId → Prop
  /-- Which stores go together. -/
  Stores : World → Store → Store → Prop
  /-- How work in a scope of the first side makes a world grow. -/
  Grows : ScopeId → World → World → Prop
  grows_refl : ∀ home world, Grows home world world
  grows_trans : ∀ {home first second third},
    Grows home first second → Grows home second third → Grows home first third
  serials_mono : ∀ {home world later serial other},
    Grows home world later → serials world serial other → serials later serial other
  scopes_mono : ∀ {home world later scope place},
    Grows home world later → scopes world scope place → scopes later scope place
  one_to_one : ∀ world, Relator.BiUnique (serials world)
  /-- New serial numbers stand for each other. -/
  fresh : ∀ {world store copy}, Stores world store copy → ∀ home,
    ∃ later, Grows home world later ∧ serials later store.fresh.1 copy.fresh.1 ∧
      Stores later store.fresh.2 copy.fresh.2
  /-- New scopes stand for each other.  Work in the new scope is no work in any other one. -/
  enclose : ∀ {world store copy outer place}, Stores world store copy → scopes world outer place →
    ∃ later, scopes later (store.enclose (some outer)).1 (copy.enclose (some place)).1 ∧
      Stores later (store.enclose (some outer)).2 (copy.enclose (some place)).2 ∧
      ∀ home final, Grows (store.enclose (some outer)).1 later final → Grows home world final
  /-- The same name is bound to alike values in scopes that stand for each other. -/
  bind : ∀ {world store copy scope place value other}, Stores world store copy →
    scopes world scope place →
    Value.Alike (serials world) (scopes world) move value other → ∀ name,
      ∃ later, Grows scope world later ∧
        Stores later (store.bind scope name value) (copy.bind place name other)
  /-- A name has alike values in scopes that stand for each other. -/
  lookup : ∀ {world store copy scope place}, Stores world store copy → scopes world scope place →
    ∀ name, Option.Rel (Value.Alike (serials world) (scopes world) move)
      (store.lookup name scope) (copy.lookup name place)
  /-- The same line is printed. -/
  print : ∀ {world store copy}, Stores world store copy → ∀ home line,
    ∃ later, Grows home world later ∧ Stores later (store.print line) (copy.print line)

namespace Tandem

variable (tandem : Tandem)

/-- Values that are alike as far as a world tells. -/
abbrev Values (world : tandem.World) : Value → Value → Prop :=
  Value.Alike (tandem.serials world) (tandem.scopes world) tandem.move

/-- Two sides have come to the same end, with as much in common as before. -/
inductive Together {α β : Type} (home : ScopeId) (world : tandem.World)
    (Answers : tandem.World → α → β → Prop) : Outcome α × Store → Outcome β × Store → Prop where
  | finished {later : tandem.World} {answer : α} {other : β} {store copy : Store}
      (grows : tandem.Grows home world later) (stores : tandem.Stores later store copy)
      (answers : Answers later answer other) :
      Together home world Answers (.finished answer, store) (.finished other, copy)
  | exhausted {later : tandem.World} {store copy : Store}
      (grows : tandem.Grows home world later) (stores : tandem.Stores later store copy) :
      Together home world Answers (.exhausted, store) (.exhausted, copy)

/-- From any stores that go together two runs come to the same end, with as much in common as
before. -/
def Keeps {α β : Type} (home : ScopeId) (world : tandem.World)
    (Answers : tandem.World → α → β → Prop) (run : Run α) (other : Run β) : Prop :=
  ∀ store copy, tandem.Stores world store copy →
    tandem.Together home world Answers (run store) (other copy)

/-- Two ways to evaluate expressions keep step in scopes that stand for each other. -/
def Steps (nested other : Evaluator) : Prop :=
  ∀ expr home world place, tandem.scopes world home place →
    tandem.Keeps home world tandem.Values (nested expr home)
      (other (expr.relocate tandem.move) place)

section

variable {tandem} {α β γ δ : Type} {home place : ScopeId} {world later : tandem.World}
  {Answers : tandem.World → α → β → Prop} {More : tandem.World → γ → δ → Prop}

theorem Values.mono {value copy : Value} (alike : tandem.Values world value copy)
    (grows : tandem.Grows home world later) : tandem.Values later value copy :=
  Value.Alike.mono alike (fun _ _ => tandem.serials_mono grows) fun _ _ => tandem.scopes_mono grows

theorem Values.monoEach {values copies : List Value}
    (each : List.Forall₂ (tandem.Values world) values copies)
    (grows : tandem.Grows home world later) :
    List.Forall₂ (tandem.Values later) values copies :=
  each.imp fun _ _ alike => Values.mono alike grows

theorem Values.monoEntries {entries copies : List (Entry Value)}
    (each : List.Forall₂ (Entry.Paired (tandem.Values world)) entries copies)
    (grows : tandem.Grows home world later) :
    List.Forall₂ (Entry.Paired (tandem.Values later)) entries copies :=
  each.imp fun _ _ paired =>
    ⟨paired.slot_eq, Values.mono paired.key grows, Values.mono paired.value grows⟩

/-- What has grown further has grown. -/
theorem Together.grow {result : Outcome α × Store} {other : Outcome β × Store}
    (together : tandem.Together home later Answers result other)
    (grows : ∀ final, tandem.Grows home later final → tandem.Grows place world final) :
    tandem.Together place world Answers result other := by
  cases together with
  | finished grown stores answers => exact .finished (grows _ grown) stores answers
  | exhausted grown stores => exact .exhausted (grows _ grown) stores

namespace Keeps

/-! ## Steps -/

protected theorem pure {answer : α} {other : β} (answers : Answers world answer other) :
    tandem.Keeps home world Answers (pure answer) (pure other) :=
  fun _ _ stores => .finished (tandem.grows_refl home world) stores answers

theorem exhausted : tandem.Keeps home world Answers Run.exhausted Run.exhausted :=
  fun _ _ stores => .exhausted (tandem.grows_refl home world) stores

/-- One run after another.  What the second ones have in common may have grown by then. -/
protected theorem bind {run : Run α} {other : Run β} {next : α → Run γ} {then_next : β → Run δ}
    (first : tandem.Keeps home world Answers run other)
    (second : ∀ later answer copy, tandem.Grows home world later → Answers later answer copy →
      tandem.Keeps home later More (next answer) (then_next copy)) :
    tandem.Keeps home world More (run >>= next) (other >>= then_next) := by
  intro store copy stores
  have together := first store copy stores
  generalize ran : run store = result at together
  generalize other_ran : other copy = other_result at together
  cases together with
  | finished grows stores answers =>
      rw [Run.bind_of_finished ran, Run.bind_of_finished other_ran]
      have rest := second _ _ _ grows answers _ _ stores
      exact rest.grow fun final => tandem.grows_trans grows
  | exhausted grows stores =>
      rw [Run.bind_of_exhausted ran, Run.bind_of_exhausted other_ran]
      exact .exhausted grows stores

theorem fresh : tandem.Keeps home world tandem.serials Run.fresh Run.fresh := by
  intro store copy stores
  obtain ⟨later, grows, paired, later_stores⟩ := tandem.fresh stores home
  exact .finished grows later_stores paired

/-- What is done in a new scope is done in no other one. -/
theorem enclose {outer other : ScopeId} {next : ScopeId → Run α} {then_next : ScopeId → Run β}
    (captured : tandem.scopes world outer other)
    (body : ∀ later scope copy, tandem.Grows home world later → tandem.scopes later scope copy →
      tandem.Keeps scope later Answers (next scope) (then_next copy)) :
    tandem.Keeps home world Answers (Run.enclose outer >>= next)
      (Run.enclose other >>= then_next) := by
  intro store copy stores
  obtain ⟨later, placed, later_stores, grows⟩ := tandem.enclose stores captured
  have together := body later _ _ (grows home later (tandem.grows_refl _ later)) placed _ _
    later_stores
  exact together.grow (grows home)

theorem bindName {value copy : Value} (placed : tandem.scopes world home place)
    (alike : tandem.Values world value copy) (name : String) :
    tandem.Keeps home world (fun _ _ _ => True) (Run.bindName home name value)
      (Run.bindName place name copy) := by
  intro store copy stores
  obtain ⟨later, grows, later_stores⟩ := tandem.bind stores placed alike name
  exact .finished grows later_stores trivial

theorem lookup (placed : tandem.scopes world home place) (name : String) :
    tandem.Keeps home world (fun later => Option.Rel (tandem.Values later))
      (Run.lookup name home) (Run.lookup name place) :=
  fun _ _ stores =>
    .finished (tandem.grows_refl home world) stores (tandem.lookup stores placed name)

theorem printLines (lines : List String) :
    tandem.Keeps home world (fun _ _ _ => True) (Run.printLines lines) (Run.printLines lines) := by
  induction lines generalizing world with
  | nil => exact fun _ _ stores => .finished (tandem.grows_refl home world) stores trivial
  | cons first rest ih =>
      intro store copy stores
      obtain ⟨later, grows, later_stores⟩ := tandem.print stores home first
      have together := ih _ _ later_stores
      exact together.grow fun final => tandem.grows_trans grows

end Keeps
end
end Tandem

/-! ## Constructs -/

namespace Evaluation

open Tandem

variable {tandem : Tandem} {home place : ScopeId} {world : tandem.World}

/-- What is made with a new serial number is alike if it is up to that number. -/
theorem keeps_made {build copied : Nat → Value}
    (alike : ∀ later serial other, tandem.Grows home world later →
      tandem.serials later serial other → tandem.Values later (build serial) (copied other)) :
    tandem.Keeps home world tandem.Values (Run.fresh >>= fun serial => pure (build serial))
      (Run.fresh >>= fun serial => pure (copied serial)) :=
  Keeps.fresh.bind fun later serial other grows paired =>
    .pure (alike later serial other grows paired)

theorem keeps_fail (mistake : Mistake) :
    tandem.Keeps home world tandem.Values (fail mistake) (fail mistake) :=
  keeps_made fun _ _ _ _ => .error

theorem keeps_identifier (placed : tandem.scopes world home place) (name : String) :
    tandem.Keeps home world tandem.Values (identifier name home) (identifier name place) := by
  refine (Keeps.lookup placed name).bind fun later found copy grows same => ?_
  cases same with
  | some alike => exact .pure alike
  | none =>
      dsimp only
      split
      · exact .pure .builtin
      · exact keeps_fail _

theorem keeps_ifPlain {run other : Run Value} {next then_next : Value → Run Value}
    (first : tandem.Keeps home world tandem.Values run other)
    (second : ∀ later value copy, tandem.Grows home world later → tandem.Values later value copy →
      tandem.Keeps home later tandem.Values (next value) (then_next copy)) :
    tandem.Keeps home world tandem.Values (ifPlain run next) (ifPlain other then_next) := by
  refine first.bind fun later value copy grows alike => ?_
  rw [alike.isSignal_eq]
  split
  · exact .pure alike
  · exact second later value copy grows alike

section

variable {nested other : Evaluator} (steps : tandem.Steps nested other)
include steps

theorem keeps_collect (placed : tandem.scopes world home place)
    {next then_next : List Value → Run Value} (exprs : List Expr)
    (rest : ∀ later values copies, tandem.Grows home world later →
      List.Forall₂ (tandem.Values later) values copies →
      tandem.Keeps home later tandem.Values (next values) (then_next copies)) :
    tandem.Keeps home world tandem.Values (collect nested home next exprs)
      (collect other place then_next (Expr.relocateEach tandem.move exprs)) := by
  induction exprs generalizing world next then_next with
  | nil =>
      rw [Expr.relocateEach]
      exact rest world [] [] (tandem.grows_refl home world) .nil
  | cons first others ih =>
      rw [Expr.relocateEach]
      refine keeps_ifPlain (steps first home world place placed) fun later value copy grows alike =>
        ih (tandem.scopes_mono grows placed) fun final values copies grown each => ?_
      exact rest final _ _ (tandem.grows_trans grows grown) (.cons (alike.mono grown) each)

theorem keeps_collectEntries (placed : tandem.scopes world home place)
    {next then_next : List (Entry Value) → Run Value} {entries copies : List (Entry Value)}
    (each : List.Forall₂ (Entry.Paired (tandem.Values world)) entries copies)
    (pairs : List (Expr × Expr))
    (rest : ∀ later entries copies, tandem.Grows home world later →
      List.Forall₂ (Entry.Paired (tandem.Values later)) entries copies →
      tandem.Keeps home later tandem.Values (next entries) (then_next copies)) :
    tandem.Keeps home world tandem.Values (collectEntries nested home next entries pairs)
      (collectEntries other place then_next copies (Expr.relocatePairs tandem.move pairs)) := by
  induction pairs generalizing world entries copies with
  | nil =>
      rw [Expr.relocatePairs]
      exact rest world entries copies (tandem.grows_refl home world) each
  | cons first others ih =>
      rw [Expr.relocatePairs]
      refine keeps_ifPlain (steps first.1 home world place placed)
        fun later key key_copy grows key_alike => ?_
      have later_placed := tandem.scopes_mono grows placed
      rw [key_alike.slot?_eq, key_alike.tag_eq]
      split
      · exact keeps_fail _
      · refine keeps_ifPlain (steps first.2 home later place later_placed)
          fun final value copy grown alike => ?_
        have both := tandem.grows_trans grows grown
        refine ih (tandem.scopes_mono both placed) ?_ fun last entries copies more => ?_
        · exact Dictionary.paired_insert (Values.monoEntries each both)
            ⟨rfl, key_alike.mono grown, alike⟩
        · exact rest last entries copies (tandem.grows_trans both more)

theorem keeps_statement (placed : tandem.scopes world home place) (text : Statement) :
    tandem.Keeps home world (fun later => Option.Rel (tandem.Values later))
      (statement nested home text) (statement other place (text.relocate tandem.move)) := by
  cases text with
  | expression token value =>
      refine (steps value home world place placed).bind fun later value copy grows alike => ?_
      exact .pure (.some alike)
  | returning token value =>
      refine (steps value home world place placed).bind fun later value copy grows alike => ?_
      rw [alike.isSignal_eq]
      split
      · exact .pure (.some alike)
      · refine Keeps.fresh.bind fun final serial other grown paired => ?_
        exact .pure (.some (.returned paired (alike.mono grown)))
  | binding token name value =>
      refine (steps value home world place placed).bind fun later value copy grows alike => ?_
      rw [alike.isSignal_eq]
      split
      · exact .pure (.some alike)
      · have later_placed := tandem.scopes_mono grows placed
        refine (Keeps.bindName later_placed alike name.literal).bind fun _ _ _ _ _ => ?_
        exact .pure .none

theorem keeps_statements (placed : tandem.scopes world home place) {last last_copy : Option Value}
    (alike : Option.Rel (tandem.Values world) last last_copy) (texts : List Statement) :
    tandem.Keeps home world (fun later => Option.Rel (tandem.Values later))
      (statements nested home last texts)
      (statements other place last_copy (Statement.relocateAll tandem.move texts)) := by
  induction texts generalizing world last last_copy with
  | nil =>
      rw [Statement.relocateAll]
      exact .pure alike
  | cons first rest ih =>
      rw [Statement.relocateAll]
      refine (keeps_statement steps placed first).bind fun later value copy grows same => ?_
      have any_eq : value.any Value.isSignal = copy.any Value.isSignal := by
        cases same with
        | none => rfl
        | some alike => exact alike.isSignal_eq
      rw [any_eq]
      split
      · exact .pure same
      · exact ih (tandem.scopes_mono grows placed) same

theorem keeps_block (placed : tandem.scopes world home place) (body : Block) :
    tandem.Keeps home world tandem.Values (block nested home body)
      (block other place (body.relocate tandem.move)) := by
  unfold block
  rw [Block.statements_relocate]
  refine (keeps_statements steps placed .none body.statements).bind
    fun later value copy grows same => ?_
  cases same with
  | none => exact .pure .null
  | some alike => exact .pure alike

theorem keeps_program (placed : tandem.scopes world home place) (text : Program) :
    tandem.Keeps home world (fun later => Option.Rel (tandem.Values later))
      (program nested home text) (program other place (text.relocate tandem.move)) := by
  refine (keeps_statements steps placed .none text.statements).bind
    fun later value copy grows same => ?_
  cases same with
  | none => exact .pure .none
  | some alike => exact .pure (.some alike.unwrap)

omit steps in
theorem keeps_bindAll (placed : tandem.scopes world home place) (names : List String)
    {values copies : List Value} (each : List.Forall₂ (tandem.Values world) values copies) :
    tandem.Keeps home world (fun _ _ _ => True) (bindAll home names values)
      (bindAll place names copies) := by
  induction names generalizing world values copies with
  | nil => exact .pure trivial
  | cons name names ih =>
      cases each with
      | nil => exact .pure trivial
      | cons first rest =>
          refine (Keeps.bindName placed first name).bind fun later _ _ grows _ => ?_
          exact ih (tandem.scopes_mono grows placed) (Values.monoEach rest grows)

/-- A call works in a new scope only. -/
theorem keeps_call {callee copy : Value} {arguments copies : List Value}
    (alike : tandem.Values world callee copy)
    (each : List.Forall₂ (tandem.Values world) arguments copies) :
    tandem.Keeps home world tandem.Values (call nested callee arguments)
      (call other copy copies) := by
  cases alike with
  | function paired captured =>
      refine Keeps.enclose captured fun later scope place grows placed => ?_
      refine (keeps_bindAll placed _ (Values.monoEach each grows)).bind
        fun final _ _ grown _ => ?_
      refine (keeps_block steps (tandem.scopes_mono grown placed) _).bind
        fun last value copy more alike => ?_
      exact .pure alike.unwrap
  | builtin =>
      refine Keeps.fresh.bind fun later serial other grows paired => ?_
      rw [Builtin.lines_eq each]
      refine (Keeps.printLines _).bind fun final _ _ grown _ => .pure ?_
      exact Builtin.alike_result (Values.monoEach each (tandem.grows_trans grows grown))
        (tandem.serials_mono grown paired) _
  | _ => exact keeps_fail _

theorem keeps_choose (placed : tandem.scopes world home place) {condition copy : Value}
    (alike : tandem.Values world condition copy) (consequence : Block)
    (alternative : Option Block) :
    tandem.Keeps home world tandem.Values
      (choose nested home condition consequence alternative)
      (choose other place copy (consequence.relocate tandem.move)
        (alternative.map (Block.relocate tandem.move))) := by
  unfold choose
  rw [alike.isTruthy_eq]
  split
  · exact keeps_block steps placed consequence
  · cases alternative with
    | some alternative => exact keeps_block steps placed alternative
    | none => exact .pure .null

/-- One level of evaluation keeps step if the levels below it do. -/
theorem steps_expression {inner inner_other : Evaluator}
    (steps_inner : tandem.Steps inner inner_other) :
    tandem.Steps (expression .standard nested inner) (expression .standard other inner_other) := by
  intro expr home world place placed
  cases expr with
  | identifier token => exact keeps_identifier placed token.literal
  | integer token value => exact keeps_made fun _ _ _ _ => .integer
  | boolean token => exact .pure .boolean
  | string token => exact keeps_made fun _ _ _ _ => .string
  | array token elements =>
      refine keeps_collect steps placed elements fun later values copies grows each => ?_
      exact keeps_made fun final serial other grown paired =>
        .ofElements paired (Values.monoEach each grown)
  | hash token pairs =>
      refine keeps_collectEntries steps placed .nil pairs fun later entries copies grows each => ?_
      exact keeps_made fun final serial other grown paired =>
        .ofEntries paired (Values.monoEntries each grown)
  | prefixed operator operand =>
      refine keeps_ifPlain (steps operand home world place placed)
        fun later value copy grows alike => ?_
      exact keeps_made fun final serial other grown paired =>
        Operation.alike_applyPrefix (alike.mono grown) paired _
  | infixed operator left right =>
      refine keeps_ifPlain (steps left home world place placed)
        fun later left left_copy grows left_alike => ?_
      refine keeps_ifPlain (steps right home later place (tandem.scopes_mono grows placed))
        fun next right right_copy more right_alike => ?_
      exact keeps_made fun final serial other grown paired =>
        Operation.alike_applyInfix (tandem.one_to_one final)
          (left_alike.mono (tandem.grows_trans more grown)) (right_alike.mono grown) paired _
  | conditional token condition consequence alternative =>
      have choosing : ∀ later value copy, tandem.Grows home world later →
          tandem.Values later value copy →
          tandem.Keeps home later tandem.Values
            (choose nested home value consequence alternative)
            (choose other place copy (consequence.relocate tandem.move)
              (alternative.map (Block.relocate tandem.move))) :=
        fun later value copy grows alike =>
          keeps_choose steps (tandem.scopes_mono grows placed) alike consequence alternative
      cases alternative <;>
        exact keeps_ifPlain (steps condition home world place placed) choosing
  | function token parameters body =>
      refine keeps_made fun later serial other grows paired => ?_
      rw [Token.map_literal_relocate]
      exact .function paired (tandem.scopes_mono grows placed)
  | call token callee arguments =>
      refine keeps_ifPlain (steps callee home world place placed)
        fun later value copy grows alike => ?_
      refine keeps_collect steps (tandem.scopes_mono grows placed) arguments
        fun final values copies grown each => ?_
      exact keeps_call steps_inner (alike.mono grown) each
  | index token container position =>
      refine keeps_ifPlain (steps container home world place placed)
        fun later container container_copy grows container_alike => ?_
      refine keeps_ifPlain (steps position home later place (tandem.scopes_mono grows placed))
        fun next position position_copy more position_alike => ?_
      exact keeps_made fun final serial other grown paired =>
        Operation.alike_select (container_alike.mono (tandem.grows_trans more grown))
          (position_alike.mono grown) paired

end

/-- Evaluation keeps step, however deep it may go. -/
theorem steps_evaluate (tandem : Tandem) (depth : Nat) :
    tandem.Steps (evaluate depth) (evaluate depth) := by
  induction depth using Nat.strongRecOn with
  | ind depth ih =>
      cases depth with
      | zero =>
          intro expr home world place placed
          rw [evaluate_zero, evaluate_zero]
          exact .exhausted
      | succ depth =>
          intro expr home world place placed
          have less : depth + 1 - callWeight < depth + 1 :=
            Nat.sub_lt (Nat.succ_pos depth) (by decide)
          rw [evaluate_succ, evaluate_succ]
          exact steps_expression (ih depth (Nat.lt_succ_self depth)) (ih _ less) expr home world
            place placed

end Evaluation
end MarmosetLang
