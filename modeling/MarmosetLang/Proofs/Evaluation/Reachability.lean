import MarmosetLang.Proofs.Evaluation.Correspondence

/-!
# Reachability

Evaluation comes to the same end from any two stores that correspond.  Scopes just opened
correspond whatever else there is in the two stores, and stores correspond if they agree on all that
can be reached from a callee and its arguments.  So neither what has been run before nor the
bindings of a caller can be told, unless they can be reached.
-/

namespace MarmosetLang

namespace Value

/-- A function somewhere in the value captures the scope. -/
inductive Captures : Value → ScopeId → Prop where
  | function {serial : Nat} {parameters : List String} {body : Block} {scope : ScopeId} :
      Captures (.function serial parameters body scope) scope
  | element {serial : Nat} {elements : List Value} {element : Value} {scope : ScopeId}
      (member : element ∈ elements) (captures : Captures element scope) :
      Captures (.array serial elements) scope
  | key {serial : Nat} {entries : List (Entry Value)} {entry : Entry Value} {scope : ScopeId}
      (member : entry ∈ entries) (captures : Captures entry.key scope) :
      Captures (.hash serial entries) scope
  | value {serial : Nat} {entries : List (Entry Value)} {entry : Entry Value} {scope : ScopeId}
      (member : entry ∈ entries) (captures : Captures entry.value scope) :
      Captures (.hash serial entries) scope
  | returned {serial : Nat} {value : Value} {scope : ScopeId} (captures : Captures value scope) :
      Captures (.returned serial value) scope

namespace Alike

variable {serials : Nat → Nat → Prop} {scopes narrower : ScopeId → ScopeId → Prop}
  {move : Nat → Nat} {value copy : Value}

/-- Only the scopes that a value captures matter for what it is like. -/
theorem restrict (alike : Alike serials scopes move value copy)
    (captured : ∀ scope place, value.Captures scope → scopes scope place → narrower scope place) :
    Alike serials narrower move value copy := by
  induction alike with
  | integer paired => exact .integer paired
  | boolean => exact .boolean
  | null => exact .null
  | string paired => exact .string paired
  | array paired length_eq _ each =>
      refine .array paired length_eq fun pair member =>
        each pair member fun scope place inside => ?_
      exact captured scope place (.element (List.of_mem_zip member).1 inside)
  | hash paired length_eq slots _ _ keys values =>
      refine .hash paired length_eq slots (fun pair member => keys pair member ?_)
        fun pair member => values pair member ?_
      · exact fun scope place inside =>
          captured scope place (.key (List.of_mem_zip member).1 inside)
      · exact fun scope place inside =>
          captured scope place (.value (List.of_mem_zip member).1 inside)
  | function paired place => exact .function paired (captured _ _ .function place)
  | builtin => exact .builtin
  | returned paired _ alike =>
      refine .returned paired (alike fun scope place inside => ?_)
      exact captured scope place (.returned inside)
  | error paired => exact .error paired

/-- The scopes that a value captures stand for others. -/
theorem exists_of_captures (alike : Alike serials scopes move value copy) {scope : ScopeId}
    (captures : value.Captures scope) : ∃ place, scopes scope place := by
  have exists_mem_zip {α β : Type} {left : List α} {right : List β} {first : α}
      (length_eq : left.length = right.length) (member : first ∈ left) :
      ∃ pair ∈ left.zip right, pair.1 = first := by
    rw [← List.map_fst_zip (Nat.le_of_eq length_eq)] at member
    exact List.mem_map.mp member
  induction captures generalizing copy with
  | function =>
      cases alike with
      | function _ captured => exact ⟨_, captured⟩
  | element member _ ih =>
      cases alike with
      | array _ length_eq each =>
          obtain ⟨pair, pair_member, rfl⟩ := exists_mem_zip length_eq member
          exact ih (each pair pair_member)
  | key member _ ih =>
      cases alike with
      | hash _ length_eq _ keys =>
          obtain ⟨pair, pair_member, rfl⟩ := exists_mem_zip length_eq member
          exact ih (keys pair pair_member)
  | value member _ ih =>
      cases alike with
      | hash _ length_eq _ _ values =>
          obtain ⟨pair, pair_member, rfl⟩ := exists_mem_zip length_eq member
          exact ih (values pair pair_member)
  | returned _ ih =>
      cases alike with
      | returned _ alike => exact ih alike

end Alike
end Value

namespace Store

/-- A scope can be reached from some values: one of them captures it, or another scope that can be
reached lies inside it or binds a value that captures it. -/
inductive Reaches (store : Store) (roots : List Value) : ScopeId → Prop where
  | root {value : Value} {scope : ScopeId} (member : value ∈ roots)
      (captures : value.Captures scope) : Reaches store roots scope
  | outer {scope around : ScopeId} {found : Scope} (reached : Reaches store roots scope)
      (found_eq : store.scopes[scope]? = some found) (outer_eq : found.outer = some around) :
      Reaches store roots around
  | bound {scope place : ScopeId} {found : Scope} {name : String} {value : Value}
      (reached : Reaches store roots scope) (found_eq : store.scopes[scope]? = some found)
      (bound : found.find? name = some value) (captures : value.Captures place) :
      Reaches store roots place

/-- A name is bound in a scope. -/
def Binds (store : Store) (scope : ScopeId) (name : String) : Prop :=
  ∃ found, store.scopes[scope]? = some found ∧ (found.find? name).isSome

/-- What can be reached stands for itself. -/
def reachable (store : Store) (roots : List Value) : Correspondence where
  scopes scope place := scope = place ∧ store.Reaches roots scope
  serials serial other := serial = other ∧ serial < store.made
  one_to_one := biUnique_eq_and (store.Reaches roots)
  serials_one_to_one := biUnique_made store

variable {store copy : Store} {roots : List Value}

theorem Reaches.lt_size (sound : store.Sound) (live : ∀ value ∈ roots, value.LivesIn store)
    {scope : ScopeId} (reached : store.Reaches roots scope) : scope < store.scopes.size := by
  have captured {value : Value} {place : ScopeId} (lives : value.LivesIn store)
      (captures : value.Captures place) : place < store.scopes.size := by
    obtain ⟨_, rfl, opened⟩ := Value.Alike.exists_of_captures lives captures
    exact opened
  induction reached with
  | root member captures => exact captured (live _ member) captures
  | outer _ found_eq outer_eq opened =>
      exact Nat.lt_trans (sound.links _ _ _ found_eq outer_eq) opened
  | bound _ found_eq bound captures => exact captured (sound.lives _ _ _ _ found_eq bound) captures

/-- Stores that agree on what can be reached correspond. -/
theorem stores_reachable (sound : store.Sound) (live : ∀ value ∈ roots, value.LivesIn store)
    (made_le : store.made ≤ copy.made)
    (same : ∀ scope, store.Reaches roots scope → copy.scopes[scope]? = store.scopes[scope]?) :
    (store.reachable roots).Stores store copy where
  serials serial other paired := by
    obtain ⟨rfl, made⟩ := paired
    exact ⟨made, Nat.lt_of_lt_of_le made made_le⟩
  scopes scope place placed := by
    obtain ⟨rfl, reached⟩ := placed
    obtain ⟨found, found_eq⟩ : ∃ found, store.scopes[scope]? = some found :=
      ⟨_, Array.getElem?_eq_getElem (reached.lt_size sound live)⟩
    refine ⟨found, found, found_eq, (same scope reached).trans found_eq, ?_, fun name => ?_⟩
    · cases outer_eq : found.outer with
      | none => exact .none
      | some around => exact .some ⟨⟨rfl, .outer reached found_eq outer_eq⟩, Iff.rfl⟩
    · cases bound : found.find? name with
      | none => exact .none
      | some value =>
          have lives := sound.lives scope found name value found_eq bound
          refine .some (Value.Alike.restrict lives fun inside place captures placed => ?_)
          exact ⟨placed.1, .bound reached found_eq bound captures⟩

theorem values_reachable {value : Value} (lives : value.LivesIn store) (member : value ∈ roots) :
    (store.reachable roots).Values value value :=
  Value.Alike.restrict lives fun _ _ captures placed => ⟨placed.1, .root member captures⟩

end Store

namespace Correspondence

open Evaluation

variable {pairing : Correspondence} {store copy : Store}

/-- Values correspond and look the same. -/
structure Shown (pairing : Correspondence) (value other : Value) : Prop where
  /-- The values correspond. -/
  values : pairing.Values value other
  /-- They look the same. -/
  render_eq : value.render = other.render

theorem Values.shown {value other : Value} (values : pairing.Values value other) :
    pairing.Shown value other :=
  ⟨values, values.render_eq⟩

/-- Two sides that had the stores `store` and `copy` have come to the same end, with corresponding
answers if any, the same text printed since, and stores that correspond again. -/
inductive SameEnd {α : Type} (pairing : Correspondence) (store copy : Store)
    (Answers : Correspondence → α → α → Prop) :
    Outcome α × Store → Outcome α × Store → Prop where
  | finished {larger : Correspondence} {answer other : α} {later later_copy : Store}
      (le : pairing ≤ larger) (answers : Answers larger answer other)
      (printed : ∃ text, later.output = store.output ++ text ∧
        later_copy.output = copy.output ++ text)
      (stores : larger.Stores later later_copy) :
      SameEnd pairing store copy Answers (.finished answer, later) (.finished other, later_copy)
  | exhausted {larger : Correspondence} {later later_copy : Store} (le : pairing ≤ larger)
      (printed : ∃ text, later.output = store.output ++ text ∧
        later_copy.output = copy.output ++ text)
      (stores : larger.Stores later later_copy) :
      SameEnd pairing store copy Answers (.exhausted, later) (.exhausted, later_copy)

/-- Sides that keep step come to the same end. -/
theorem sameEnd_of_keeps {α : Type} {home : ScopeId} {run other : Run α}
    {Answers More : Correspondence → α → α → Prop}
    (keeps : (tandem store.output copy.output).Keeps home pairing Answers run other)
    (stores : pairing.Stores store copy)
    (more : ∀ larger answer second, Answers larger answer second → More larger answer second) :
    SameEnd pairing store copy More (run store) (other copy) := by
  have together := keeps store copy
    ⟨stores, "", String.append_empty.symm, String.append_empty.symm⟩
  generalize run store = result at together
  generalize other copy = other_result at together
  cases together with
  | finished grows stores answers => exact .finished grows (more _ _ _ answers) stores.2 stores.1
  | exhausted grows stores => exact .exhausted grows stores.2 stores.1

section

variable {scope place : ScopeId} (stores : pairing.Stores store copy)
  (placed : pairing.scopes scope place) (depth : Nat)
include stores placed

theorem sameEnd_expression (expr : Expr) :
    SameEnd pairing store copy Shown (evaluate depth expr scope store)
      (evaluate depth expr place copy) := by
  have keeps :=
    steps_evaluate (tandem store.output copy.output) depth expr scope pairing place placed
  change (tandem _ _).Keeps _ _ _ _ (evaluate depth (expr.relocate id) place) at keeps
  rw [Expr.relocate_id] at keeps
  exact sameEnd_of_keeps keeps stores fun _ _ _ values => Values.shown values

theorem sameEnd_statement (text : Statement) :
    SameEnd pairing store copy (fun larger => Option.Rel larger.Shown)
      (statement (evaluate depth) scope text store)
      (statement (evaluate depth) place text copy) := by
  have steps := steps_evaluate (tandem store.output copy.output) depth
  have keeps := keeps_statement steps placed text
  change (tandem _ _).Keeps _ _ _ _ (statement _ _ (text.relocate id)) at keeps
  rw [Statement.relocate_id] at keeps
  refine sameEnd_of_keeps keeps stores fun larger found other same => ?_
  cases same with
  | none => exact .none
  | some values => exact .some (Values.shown values)

theorem sameEnd_block (body : Block) :
    SameEnd pairing store copy Shown (block (evaluate depth) scope body store)
      (block (evaluate depth) place body copy) := by
  have steps := steps_evaluate (tandem store.output copy.output) depth
  have keeps := keeps_block steps placed body
  change (tandem _ _).Keeps _ _ _ _ (block _ _ (body.relocate id)) at keeps
  rw [Block.relocate_id] at keeps
  exact sameEnd_of_keeps keeps stores fun _ _ _ values => Values.shown values

theorem sameEnd_program (text : Program) :
    SameEnd pairing store copy (fun larger => Option.Rel larger.Shown)
      (program (evaluate depth) scope text store) (program (evaluate depth) place text copy) := by
  have steps := steps_evaluate (tandem store.output copy.output) depth
  have keeps := keeps_program steps placed text
  change (tandem _ _).Keeps _ _ _ _ (program _ _ (text.relocate id)) at keeps
  rw [Program.relocate_id] at keeps
  refine sameEnd_of_keeps keeps stores fun larger found other same => ?_
  cases same with
  | none => exact .none
  | some values => exact .some (Values.shown values)

omit placed in
theorem sameEnd_call {callee other : Value} {arguments others : List Value}
    (values : pairing.Values callee other)
    (each : List.Forall₂ pairing.Values arguments others) :
    SameEnd pairing store copy Shown (call (evaluate depth) callee arguments store)
      (call (evaluate depth) other others copy) := by
  have steps := steps_evaluate (tandem store.output copy.output) depth
  have keeps : (tandem store.output copy.output).Keeps 0 pairing _ _ _ :=
    keeps_call steps values each
  exact sameEnd_of_keeps keeps stores fun _ _ _ values => Values.shown values

end

/-- Nothing stands for anything. -/
def nothing : Correspondence where
  scopes _ _ := False
  serials _ _ := False
  one_to_one := ⟨fun _ _ _ => False.elim, fun _ _ _ => False.elim⟩
  serials_one_to_one := ⟨fun _ _ _ => False.elim, fun _ _ _ => False.elim⟩

theorem stores_nothing (store copy : Store) : nothing.Stores store copy where
  scopes _ _ := False.elim
  serials _ _ := False.elim

/-- What has been opened to begin with needs no mention. -/
theorem SameEnd.of_enclose {α : Type} {Answers : Correspondence → α → α → Prop}
    {smaller : Correspondence} {outer around : Option ScopeId} {result other : Outcome α × Store}
    (same : SameEnd pairing (store.enclose outer).2 (copy.enclose around).2 Answers result other)
    (le : smaller ≤ pairing) : SameEnd smaller store copy Answers result other := by
  cases same with
  | finished more answers printed stores =>
      exact .finished (le_trans le more) answers printed stores
  | exhausted more printed stores => exact .exhausted (le_trans le more) printed stores

/-- In scopes that stand for each other the same names are bound. -/
theorem SameEnd.binds_iff {α : Type} {Answers : Correspondence → α → α → Prop}
    {result other : Outcome α × Store} (same : SameEnd pairing store copy Answers result other)
    {scope place : ScopeId} (placed : pairing.scopes scope place) (name : String) :
    result.2.Binds scope name ↔ other.2.Binds place name := by
  have binds_iff {larger : Correspondence} {later later_copy : Store} (le : pairing ≤ larger)
      (stores : larger.Stores later later_copy) :
      later.Binds scope name ↔ later_copy.Binds place name := by
    obtain ⟨found, found_copy, found_eq, copy_eq, paired⟩ := stores.scopes _ _ (le.1 _ _ placed)
    have bound := paired.bound name
    simp only [Store.Binds, found_eq, copy_eq, Option.some.injEq, exists_eq_left']
    generalize found.find? name = value at bound
    generalize found_copy.find? name = other_value at bound
    cases bound <;> rfl
  cases same with
  | finished le _ _ stores | exhausted le _ stores => exact binds_iff le stores

/-- Evaluation depends only on what can be reached.  From stores that correspond, every construct
comes to the same end in scopes that stand for each other, and so do calls of values that
correspond.  A program comes to the same end in any two scopes just opened, and binds the same names
there.  A call comes to the same end in any two stores that agree on what can be reached from the
callee and the arguments. -/
theorem sameEnd_of_stores (depth : Nat) :
    (∀ (pairing : Correspondence) (store copy : Store), pairing.Stores store copy →
      (∀ scope place, pairing.scopes scope place →
        (∀ expr, SameEnd pairing store copy Shown (evaluate depth expr scope store)
          (evaluate depth expr place copy)) ∧
        (∀ text, SameEnd pairing store copy (fun larger => Option.Rel larger.Shown)
          (statement (evaluate depth) scope text store)
          (statement (evaluate depth) place text copy)) ∧
        (∀ body, SameEnd pairing store copy Shown (block (evaluate depth) scope body store)
          (block (evaluate depth) place body copy)) ∧
        ∀ text, SameEnd pairing store copy (fun larger => Option.Rel larger.Shown)
          (program (evaluate depth) scope text store)
          (program (evaluate depth) place text copy)) ∧
      ∀ callee other arguments others, pairing.Values callee other →
        List.Forall₂ pairing.Values arguments others →
        SameEnd pairing store copy Shown (call (evaluate depth) callee arguments store)
          (call (evaluate depth) other others copy)) ∧
    (∀ (store copy : Store) (text : Program),
      let opened := store.enclose none
      let opened_copy := copy.enclose none
      let result := program (evaluate depth) opened.1 text opened.2
      let other := program (evaluate depth) opened_copy.1 text opened_copy.2
      SameEnd nothing store copy (fun larger => Option.Rel larger.Shown) result other ∧
        ∀ name, result.2.Binds opened.1 name ↔ other.2.Binds opened_copy.1 name) ∧
    ∀ (store copy : Store) (callee : Value) (arguments : List Value), store.Sound →
      (∀ value ∈ callee :: arguments, value.LivesIn store) → store.made ≤ copy.made →
      (∀ scope, store.Reaches (callee :: arguments) scope →
        copy.scopes[scope]? = store.scopes[scope]?) →
      SameEnd (store.reachable (callee :: arguments)) store copy Shown
        (call (evaluate depth) callee arguments store)
        (call (evaluate depth) callee arguments copy) := by
  refine ⟨fun pairing store copy stores => ⟨?_, ?_⟩, ?_, ?_⟩
  · intro scope place placed
    exact ⟨sameEnd_expression stores placed depth, sameEnd_statement stores placed depth,
      sameEnd_block stores placed depth, sameEnd_program stores placed depth⟩
  · exact fun _ _ _ _ => sameEnd_call stores depth
  · intro store copy text opened opened_copy result other
    obtain ⟨pairing, le, placed, stores⟩ := (stores_nothing store copy).enclose .none
    have same := sameEnd_program stores placed depth text
    exact ⟨same.of_enclose le, same.binds_iff placed⟩
  · intro store copy callee arguments sound live made_le same
    have stores := Store.stores_reachable sound live made_le same
    refine sameEnd_call stores depth (Store.values_reachable (live _ List.mem_cons_self)
      List.mem_cons_self) (List.forall₂_same.mpr fun argument member => ?_)
    have in_roots := List.mem_cons_of_mem callee member
    exact Store.values_reachable (live argument in_roots) in_roots

/-- The scope that a function captures is all that can be reached from it if nothing is bound
there.  Whether `x` is bound elsewhere makes no difference to the function that looks it up. -/
theorem sameEnd_of_stores_sample :
    let store := ((Store.empty.enclose none).2.enclose none).2.fresh.2
    let copy := store.bind 1 "x" .null
    let name : Expr := .identifier ⟨.identifier, "x", 6⟩
    let body : Block := .mk ⟨.openBrace, "\x7b", 4⟩ [.expression ⟨.identifier, "x", 6⟩ name]
    let callee : Value := .function 0 [] body 0
    let pairing := store.reachable [callee]
    store.Sound ∧ (∀ value ∈ [callee], value.LivesIn store) ∧ store.made ≤ copy.made ∧
      (∀ scope, store.Reaches [callee] scope → copy.scopes[scope]? = store.scopes[scope]?) ∧
      SameEnd pairing store copy Shown (call (evaluate 30) callee [] store)
        (call (evaluate 30) callee [] copy) ∧
      pairing.Stores store copy ∧ pairing.scopes 0 0 ∧
      SameEnd pairing store copy Shown (evaluate 30 name 0 store) (evaluate 30 name 0 copy) ∧
      pairing.Values callee callee ∧ List.Forall₂ pairing.Values [callee] [callee] ∧
      SameEnd pairing store copy Shown (call (evaluate 30) callee [callee] store)
        (call (evaluate 30) callee [callee] copy) := by
  intro store copy name body callee pairing
  have attained : store.Attained := .tail (.tail (.single .create) .create) .make
  have sound := attained.sound
  have lives : callee.LivesIn store := .function (by decide) (by decide) [] body
  have live : ∀ value ∈ [callee], value.LivesIn store := List.forall_mem_singleton.mpr lives
  have reached_eq {scope : ScopeId} (reached : store.Reaches [callee] scope) : scope = 0 := by
    induction reached with
    | root member captures =>
        rw [List.mem_singleton.mp member] at captures
        change (Value.function 0 [] body 0).Captures _ at captures
        cases captures with
        | function => rfl
    | outer _ found_eq outer_eq zero =>
        subst zero
        cases found_eq
        exact nomatch outer_eq
    | bound _ found_eq bound _ zero =>
        subst zero
        cases found_eq
        exact nomatch bound
  have same : ∀ scope, store.Reaches [callee] scope →
      copy.scopes[scope]? = store.scopes[scope]? := by
    intro scope reached
    rw [reached_eq reached]
    rfl
  have made_le : store.made ≤ copy.made := by decide
  have stores : pairing.Stores store copy := Store.stores_reachable sound live made_le same
  have placed : pairing.scopes 0 0 := ⟨rfl, .root List.mem_cons_self .function⟩
  have values : pairing.Values callee callee := Store.values_reachable lives List.mem_cons_self
  have each : List.Forall₂ pairing.Values [callee] [callee] := .cons values .nil
  obtain ⟨corresponding, -, agreeing⟩ := sameEnd_of_stores 30
  obtain ⟨constructs, calls⟩ := corresponding pairing store copy stores
  exact ⟨sound, live, made_le, same, agreeing store copy callee [] sound live made_le same, stores,
    placed, (constructs 0 0 placed).1 name, values, each,
    calls callee callee [callee] [callee] values each⟩

end Correspondence
end MarmosetLang
