import MarmosetLang.Proofs.Evaluation.Sparing
import MarmosetLang.Proofs.Evaluation.Tandem
import Mathlib.Logic.Relation
import Mathlib.Tactic.ByContra

/-!
# Frames

Work in a scope binds names in that scope and in scopes that are opened on the way, and nowhere
else.  A call works in a new scope, and so it leaves all scopes that exist as they are, the one in
which its function was made included.  Scopes lie inside earlier ones for good.

Evaluation is set beside itself here: what both sides have in common is the store, and it grows
without touching any scope but the one at hand.
-/

namespace MarmosetLang

/-- A value lives in a store if all serial numbers and all scopes in it have been given out
there. -/
def Value.LivesIn (value : Value) (store : Store) : Prop :=
  Value.Alike (fun serial other => serial = other ∧ serial < store.made)
    (fun scope place => scope = place ∧ scope < store.scopes.size) id value value

namespace Store

/-- What holds of all stores that come about. -/
structure Sound (store : Store) : Prop where
  /-- Scopes lie inside earlier ones. -/
  links : ∀ (scope : ScopeId) (found : Scope) (outer : ScopeId),
    store.scopes[scope]? = some found → found.outer = some outer → outer < scope
  /-- What is bound in them lives in the store. -/
  lives : ∀ (scope : ScopeId) (found : Scope) (name : String) (value : Value),
    store.scopes[scope]? = some found → found.find? name = some value → value.LivesIn store

/-- A store has grown, and of the scopes that it had, work may have been done in one only. -/
structure Grown (home : ScopeId) (earlier later : Store) : Prop where
  /-- Serial numbers stay given out. -/
  made_le : earlier.made ≤ later.made
  /-- Scopes stay open. -/
  size_le : earlier.scopes.size ≤ later.scopes.size
  /-- The other scopes are as they were. -/
  untouched : ∀ scope, scope ≠ home → scope < earlier.scopes.size →
    later.scopes[scope]? = earlier.scopes[scope]?
  /-- That scope lies where it was, and no name has gone from it. -/
  rebound : ∀ found, earlier.scopes[home]? = some found →
    ∃ now, later.scopes[home]? = some now ∧ now.outer = found.outer ∧
      ∀ name, (found.find? name).isSome → (now.find? name).isSome

namespace Grown

variable {home : ScopeId} {earlier middle later : Store}

theorem refl (home : ScopeId) (store : Store) : store.Grown home store where
  made_le := Nat.le_refl _
  size_le := Nat.le_refl _
  untouched _ _ _ := rfl
  rebound found found_eq := ⟨found, found_eq, rfl, fun _ bound => bound⟩

theorem trans (first : earlier.Grown home middle) (second : middle.Grown home later) :
    earlier.Grown home later where
  made_le := Nat.le_trans first.made_le second.made_le
  size_le := Nat.le_trans first.size_le second.size_le
  untouched scope differs opened :=
    (second.untouched scope differs (Nat.lt_of_lt_of_le opened first.size_le)).trans
      (first.untouched scope differs opened)
  rebound found found_eq := by
    obtain ⟨now, now_eq, outer_eq, stay⟩ := first.rebound found found_eq
    obtain ⟨final, final_eq, final_outer_eq, still_stay⟩ := second.rebound now now_eq
    exact ⟨final, final_eq, final_outer_eq.trans outer_eq,
      fun name bound => still_stay name (stay name bound)⟩

theorem of_scopes_eq (made_le : earlier.made ≤ later.made)
    (scopes_eq : later.scopes = earlier.scopes) (home : ScopeId) : earlier.Grown home later where
  made_le := made_le
  size_le := Nat.le_of_eq (congrArg Array.size scopes_eq.symm)
  untouched _ _ _ := by rw [scopes_eq]
  rebound found found_eq := ⟨found, scopes_eq ▸ found_eq, rfl, fun _ bound => bound⟩

theorem bind (store : Store) (scope : ScopeId) (name : String) (value : Value) :
    store.Grown scope (store.bind scope name value) where
  made_le := Nat.le_refl _
  size_le := Nat.le_of_eq (store.size_bind scope name value).symm
  untouched place differs _ := by rw [getElem?_bind, if_neg differs.symm]
  rebound found found_eq := by
    refine ⟨found.bind name value, by rw [getElem?_bind, if_pos rfl, found_eq]; rfl, rfl, ?_⟩
    intro other bound
    by_cases same : name = other
    · rw [← same, Scope.find?_bind_self]
      rfl
    · rwa [Scope.find?_bind_of_ne _ same]

/-- Work in a scope just opened is work in no scope that existed. -/
theorem of_enclose {outer : Option ScopeId} (home : ScopeId)
    (grown : (earlier.enclose outer).2.Grown (earlier.enclose outer).1 later) :
    earlier.Grown home later := by
  have size_le := grown.size_le
  rw [size_enclose] at size_le
  have same : ∀ scope, scope < earlier.scopes.size →
      later.scopes[scope]? = earlier.scopes[scope]? := by
    intro scope opened
    have still_opened : scope < (earlier.enclose outer).2.scopes.size := by
      rw [size_enclose]
      omega
    have old := grown.untouched scope (Nat.ne_of_lt opened) still_opened
    rwa [getElem?_enclose, if_neg (Nat.ne_of_lt opened)] at old
  refine ⟨grown.made_le, by omega, fun scope _ opened => same scope opened, ?_⟩
  intro found found_eq
  have opened : home < earlier.scopes.size := by
    by_contra closed
    rw [Array.getElem?_eq_none (Nat.le_of_not_lt closed)] at found_eq
    exact nomatch found_eq
  exact ⟨found, (same home opened).trans found_eq, rfl, fun _ bound => bound⟩

end Grown

end Store

theorem Value.LivesIn.mono {value : Value} {earlier later : Store} (lives : value.LivesIn earlier)
    (made_le : earlier.made ≤ later.made) (size_le : earlier.scopes.size ≤ later.scopes.size) :
    value.LivesIn later :=
  Alike.mono lives (fun _ _ made => ⟨made.1, Nat.lt_of_lt_of_le made.2 made_le⟩)
    fun _ _ opened => ⟨opened.1, Nat.lt_of_lt_of_le opened.2 size_le⟩

theorem Value.LivesIn.function {store : Store} {serial : Nat} {scope : ScopeId}
    (made : serial < store.made) (opened : scope < store.scopes.size) (parameters : List String)
    (body : Block) : (Value.function serial parameters body scope).LivesIn store := by
  unfold Value.LivesIn
  nth_rewrite 2 [← Block.relocate_id body]
  exact .function ⟨rfl, made⟩ ⟨rfl, opened⟩

namespace Store

namespace Sound

variable {store : Store}

theorem empty : Store.empty.Sound where
  links scope found outer found_eq := by simp [Store.empty] at found_eq
  lives scope found name value found_eq := by simp [Store.empty] at found_eq

theorem of_scopes_eq {later : Store} (sound : store.Sound) (made_le : store.made ≤ later.made)
    (scopes_eq : later.scopes = store.scopes) : later.Sound where
  links scope found outer found_eq := sound.links scope found outer (scopes_eq ▸ found_eq)
  lives scope found name value found_eq bound :=
    (sound.lives scope found name value (scopes_eq ▸ found_eq) bound).mono made_le
      (Nat.le_of_eq (congrArg Array.size scopes_eq.symm))

theorem enclose (sound : store.Sound) {outer : Option ScopeId}
    (earlier : ∀ place, outer = some place → place < store.scopes.size) :
    (store.enclose outer).2.Sound where
  links scope found place found_eq outer_eq := by
    rw [getElem?_enclose] at found_eq
    split at found_eq
    · rename_i is_new
      cases found_eq
      rw [is_new]
      exact earlier place outer_eq
    · exact sound.links scope found place found_eq outer_eq
  lives scope found name value found_eq bound := by
    rw [getElem?_enclose] at found_eq
    split at found_eq
    · cases found_eq
      exact nomatch bound
    · refine (sound.lives scope found name value found_eq bound).mono (Nat.le_refl _) ?_
      rw [size_enclose]
      omega

theorem bind (sound : store.Sound) (scope : ScopeId) (name : String) {value : Value}
    (lives : value.LivesIn store) : (store.bind scope name value).Sound := by
  have size_le := Nat.le_of_eq (store.size_bind scope name value).symm
  refine ⟨fun place found outer found_eq outer_eq => ?_,
    fun place found other bound_value found_eq bound => ?_⟩
  · rw [getElem?_bind] at found_eq
    split at found_eq
    · obtain ⟨old, old_eq, rfl⟩ := Option.map_eq_some_iff.mp found_eq
      exact sound.links place old outer old_eq outer_eq
    · exact sound.links place found outer found_eq outer_eq
  · refine Value.LivesIn.mono ?_ (Nat.le_refl store.made) size_le
    rw [getElem?_bind] at found_eq
    split at found_eq
    · obtain ⟨old, old_eq, rfl⟩ := Option.map_eq_some_iff.mp found_eq
      by_cases same : name = other
      · rw [same, Scope.find?_bind_self] at bound
        cases bound
        exact lives
      · rw [Scope.find?_bind_of_ne _ same] at bound
        exact sound.lives place old other bound_value old_eq bound
    · exact sound.lives place found other bound_value found_eq bound

theorem livesIn_of_lookup (sound : store.Sound) {name : String} {scope : ScopeId} {value : Value}
    (found : store.lookup name scope = some value) : value.LivesIn store := by
  fun_induction Store.lookup store name scope with
  | case1 => exact nomatch found
  | case2 scope here here_eq value bound =>
      cases found
      exact sound.lives scope here name value here_eq bound
  | case3 => exact nomatch found
  | case4 scope here here_eq unbound outer outer_eq earlier ih => exact ih found
  | case5 => exact nomatch found

end Sound

/-- One scope lies directly around another. -/
def Encloses (store : Store) (outer scope : ScopeId) : Prop :=
  ∃ found, store.scopes[scope]? = some found ∧ found.outer = some outer

section Links

variable {store : Store} (links : ∀ outer scope, store.Encloses outer scope → outer < scope)

include links

/-- Where scopes lie inside earlier ones, looking a name up goes on as long as there is a scope
around. -/
theorem lookup_eq_of_links (name : String) (scope : ScopeId) :
    store.lookup name scope =
      (store.scopes[scope]?).bind fun found =>
        (found.find? name).or (found.outer.bind (store.lookup name)) := by
  cases found_eq : store.scopes[scope]? with
  | none =>
      rw [lookup, found_eq]
      rfl
  | some found =>
      rw [lookup_of_found found_eq, Option.bind_some]
      congr 1
      cases outer_eq : found.outer with
      | none => rfl
      | some outer => exact if_pos (links outer scope ⟨found, found_eq, outer_eq⟩)

theorem wellFounded_encloses_of_links : WellFounded store.Encloses :=
  Subrelation.wf (links _ _) Nat.lt_wfRel.wf

end Links

namespace Sound

variable {store : Store}

theorem earlier_of_encloses (sound : store.Sound) (outer scope : ScopeId)
    (encloses : store.Encloses outer scope) : outer < scope := by
  obtain ⟨found, found_eq, outer_eq⟩ := encloses
  exact sound.links scope found outer found_eq outer_eq

theorem lookup_eq (sound : store.Sound) (name : String) (scope : ScopeId) :
    store.lookup name scope =
      (store.scopes[scope]?).bind fun found =>
        (found.find? name).or (found.outer.bind (store.lookup name)) :=
  lookup_eq_of_links sound.earlier_of_encloses name scope

theorem wellFounded_encloses (sound : store.Sound) : WellFounded store.Encloses :=
  wellFounded_encloses_of_links sound.earlier_of_encloses

end Sound

/-- Standing for oneself is one-to-one. -/
theorem biUnique_eq_and {α : Type} (holds : α → Prop) :
    Relator.BiUnique fun first second => first = second ∧ holds first := by
  constructor
  · intro first second third left right
    exact left.1.trans right.1.symm
  · intro first second third left right
    exact left.1.symm.trans right.1

theorem biUnique_made (store : Store) :
    Relator.BiUnique fun serial other => serial = other ∧ serial < store.made :=
  biUnique_eq_and fun serial => serial < store.made

/-- Evaluation beside itself.  The store is all that there is to share. -/
def frame : Tandem where
  World := Store
  move := id
  serials store serial other := serial = other ∧ serial < store.made
  scopes store scope place := scope = place ∧ scope < store.scopes.size
  Stores world store copy := store = world ∧ copy = world ∧ world.Sound
  Grows := Grown
  grows_refl := Grown.refl
  grows_trans := Grown.trans
  serials_mono grown made := ⟨made.1, Nat.lt_of_lt_of_le made.2 grown.made_le⟩
  scopes_mono grown opened := ⟨opened.1, Nat.lt_of_lt_of_le opened.2 grown.size_le⟩
  one_to_one := biUnique_made
  fresh := by
    rintro _ _ store ⟨rfl, rfl, sound⟩ home
    have made_le : store.made ≤ store.fresh.2.made := Nat.le_succ store.made
    have grown : store.Grown home store.fresh.2 := .of_scopes_eq made_le rfl home
    exact ⟨store.fresh.2, grown, ⟨rfl, Nat.lt_succ_self _⟩, rfl, rfl,
      sound.of_scopes_eq made_le rfl⟩
  enclose := by
    rintro _ _ store outer _ ⟨rfl, rfl, sound⟩ ⟨rfl, opened⟩
    refine ⟨(store.enclose (some outer)).2, ⟨rfl, ?_⟩, ⟨rfl, rfl, ?_⟩,
      fun home final grown => grown.of_enclose home⟩
    · rw [size_enclose]
      exact Nat.lt_succ_self _
    · refine sound.enclose fun place outer_eq => ?_
      rwa [← Option.some.inj outer_eq]
  bind := by
    rintro _ _ store scope _ value other ⟨rfl, rfl, sound⟩ ⟨rfl, opened⟩ alike name
    obtain rfl := alike.eq (fun _ _ => And.left) fun _ _ => And.left
    exact ⟨store.bind scope name value, .bind store scope name value, rfl, rfl,
      sound.bind scope name alike⟩
  lookup := by
    rintro _ _ store scope _ ⟨rfl, rfl, sound⟩ ⟨rfl, opened⟩ name
    cases found : store.lookup name scope with
    | none => exact .none
    | some value => exact .some (sound.livesIn_of_lookup found)
  print := by
    rintro _ _ store ⟨rfl, rfl, sound⟩ home line
    have made_le : store.made ≤ (store.print line).made := Nat.le_refl _
    have grown : store.Grown home (store.print line) := .of_scopes_eq made_le rfl home
    exact ⟨store.print line, grown, rfl, rfl, sound.of_scopes_eq made_le rfl⟩

open Evaluation

variable {store : Store} {depth : Nat}

/-- What keeps step with itself makes the store grow and leaves it sound. -/
theorem grown_of_keeps {α : Type} {home : ScopeId} {Answers : Store → α → α → Prop} {run : Run α}
    (keeps : frame.Keeps home store Answers run run) (sound : store.Sound) :
    store.Grown home (run store).2 ∧ (run store).2.Sound := by
  have together := keeps store store ⟨rfl, rfl, sound⟩
  generalize run store = result at together
  generalize other_eq : result = other at together
  cases together with
  | finished grows stores | exhausted grows stores =>
      obtain ⟨rfl, -, later_sound⟩ := stores
      exact ⟨grows, later_sound⟩

theorem grown_expression (sound : store.Sound) {scope : ScopeId}
    (opened : scope < store.scopes.size) (expr : Expr) :
    store.Grown scope (evaluate depth expr scope store).2 ∧
      (evaluate depth expr scope store).2.Sound := by
  have keeps := steps_evaluate frame depth expr scope store scope ⟨rfl, opened⟩
  change frame.Keeps _ _ _ _ (evaluate depth (expr.relocate id) scope) at keeps
  rw [Expr.relocate_id] at keeps
  exact grown_of_keeps keeps sound

theorem grown_statement (sound : store.Sound) {scope : ScopeId}
    (opened : scope < store.scopes.size) (text : Statement) :
    store.Grown scope (statement (evaluate depth) scope text store).2 ∧
      (statement (evaluate depth) scope text store).2.Sound := by
  have placed : frame.scopes store scope scope := ⟨rfl, opened⟩
  have keeps := keeps_statement (steps_evaluate frame depth) placed text
  change frame.Keeps _ _ _ _ (statement _ _ (text.relocate id)) at keeps
  rw [Statement.relocate_id] at keeps
  exact grown_of_keeps keeps sound

theorem grown_block (sound : store.Sound) {scope : ScopeId} (opened : scope < store.scopes.size)
    (body : Block) :
    store.Grown scope (block (evaluate depth) scope body store).2 ∧
      (block (evaluate depth) scope body store).2.Sound := by
  have placed : frame.scopes store scope scope := ⟨rfl, opened⟩
  have keeps := keeps_block (steps_evaluate frame depth) placed body
  change frame.Keeps _ _ _ _ (block _ _ (body.relocate id)) at keeps
  rw [Block.relocate_id] at keeps
  exact grown_of_keeps keeps sound

theorem grown_program (sound : store.Sound) {scope : ScopeId}
    (opened : scope < store.scopes.size) (text : Program) :
    store.Grown scope (program (evaluate depth) scope text store).2 ∧
      (program (evaluate depth) scope text store).2.Sound := by
  have placed : frame.scopes store scope scope := ⟨rfl, opened⟩
  have keeps := keeps_program (steps_evaluate frame depth) placed text
  change frame.Keeps _ _ _ _ (program _ _ (text.relocate id)) at keeps
  rw [Program.relocate_id] at keeps
  exact grown_of_keeps keeps sound

/-- A call is work in any scope that one likes, and so in none that exists. -/
theorem grown_call (sound : store.Sound) {callee : Value} {arguments : List Value}
    (lives : callee.LivesIn store) (all_live : ∀ argument ∈ arguments, argument.LivesIn store)
    (home : ScopeId) :
    store.Grown home (call (evaluate depth) callee arguments store).2 ∧
      (call (evaluate depth) callee arguments store).2.Sound := by
  have each : List.Forall₂ (frame.Values store) arguments arguments :=
    List.forall₂_same.mpr all_live
  exact grown_of_keeps (keeps_call (steps_evaluate frame depth) lives each) sound

/-! ## Stores that come about -/

/-- What may be done to a store: scopes are opened, values made and bound, texts written, and
constructs evaluated, however that ends. -/
inductive Step (store : Store) : Store → Prop where
  | create : Step store (store.enclose none).2
  | enclose {outer : ScopeId} (opened : outer < store.scopes.size) :
      Step store (store.enclose (some outer)).2
  | make : Step store store.fresh.2
  | bind {scope : ScopeId} {value : Value} (opened : scope < store.scopes.size) (name : String)
      (lives : value.LivesIn store) : Step store (store.bind scope name value)
  | write (output : String) : Step store { store with output := output }
  | expression (depth : Nat) {scope : ScopeId} (opened : scope < store.scopes.size) (expr : Expr) :
      Step store (evaluate depth expr scope store).2
  | statement (depth : Nat) {scope : ScopeId} (opened : scope < store.scopes.size)
      (text : Statement) : Step store (statement (evaluate depth) scope text store).2
  | block (depth : Nat) {scope : ScopeId} (opened : scope < store.scopes.size) (body : Block) :
      Step store (block (evaluate depth) scope body store).2
  | program (depth : Nat) {scope : ScopeId} (opened : scope < store.scopes.size)
      (text : Program) : Step store (program (evaluate depth) scope text store).2
  | call (depth : Nat) {callee : Value} {arguments : List Value} (lives : callee.LivesIn store)
      (all_live : ∀ argument ∈ arguments, argument.LivesIn store) :
      Step store (call (evaluate depth) callee arguments store).2

/-- A store that comes about step by step. -/
def Attained (store : Store) : Prop :=
  Relation.ReflTransGen Step empty store

/-- Every step is work in some scope at most. -/
theorem Step.grown {later : Store} (step : store.Step later) (sound : store.Sound) :
    (∃ home, store.Grown home later) ∧ later.Sound := by
  cases step with
  | create =>
      exact ⟨⟨_, .of_enclose 0 (.refl _ _)⟩, sound.enclose nofun⟩
  | @enclose outer opened =>
      refine ⟨⟨_, .of_enclose 0 (.refl _ _)⟩, sound.enclose fun place outer_eq => ?_⟩
      rwa [← Option.some.inj outer_eq]
  | make =>
      have made_le : store.made ≤ store.fresh.2.made := Nat.le_succ store.made
      exact ⟨⟨0, .of_scopes_eq made_le rfl 0⟩, sound.of_scopes_eq made_le rfl⟩
  | bind _ name lives => exact ⟨⟨_, .bind store _ name _⟩, sound.bind _ name lives⟩
  | write output =>
      have made_le : store.made ≤ { store with output := output }.made := Nat.le_refl _
      exact ⟨⟨0, .of_scopes_eq made_le rfl 0⟩, sound.of_scopes_eq made_le rfl⟩
  | expression depth opened expr =>
      obtain ⟨grown, later_sound⟩ := grown_expression sound opened expr
      exact ⟨⟨_, grown⟩, later_sound⟩
  | statement depth opened text =>
      obtain ⟨grown, later_sound⟩ := grown_statement sound opened text
      exact ⟨⟨_, grown⟩, later_sound⟩
  | block depth opened body =>
      obtain ⟨grown, later_sound⟩ := grown_block sound opened body
      exact ⟨⟨_, grown⟩, later_sound⟩
  | program depth opened text =>
      obtain ⟨grown, later_sound⟩ := grown_program sound opened text
      exact ⟨⟨_, grown⟩, later_sound⟩
  | call depth lives all_live =>
      obtain ⟨grown, later_sound⟩ := grown_call sound lives all_live 0
      exact ⟨⟨_, grown⟩, later_sound⟩

theorem Attained.sound (attained : store.Attained) : store.Sound := by
  induction attained with
  | refl => exact .empty
  | tail _ step sound => exact (step.grown sound).2

/-- Scopes stay where they are. -/
theorem Grown.outer_eq {home scope : ScopeId} {later : Store} {found : Scope}
    (grown : store.Grown home later) (found_eq : store.scopes[scope]? = some found) :
    ∃ now, later.scopes[scope]? = some now ∧ now.outer = found.outer := by
  by_cases same : scope = home
  · subst same
    obtain ⟨now, now_eq, outer_eq, -⟩ := grown.rebound found found_eq
    exact ⟨now, now_eq, outer_eq⟩
  · obtain ⟨opened, -⟩ := Array.getElem?_eq_some_iff.mp found_eq
    exact ⟨found, (grown.untouched scope same opened).trans found_eq, rfl⟩

theorem outer_eq_of_steps {later : Store} (sound : store.Sound)
    (steps : Relation.ReflTransGen Step store later) {scope : ScopeId} {found : Scope}
    (found_eq : store.scopes[scope]? = some found) :
    ∃ now, later.scopes[scope]? = some now ∧ now.outer = found.outer := by
  have both : later.Sound ∧
      ∃ now, later.scopes[scope]? = some now ∧ now.outer = found.outer := by
    induction steps with
    | refl => exact ⟨sound, found, found_eq, rfl⟩
    | tail _ step ih =>
        obtain ⟨middle_sound, middle, middle_eq, middle_outer_eq⟩ := ih
        obtain ⟨⟨home, grown⟩, later_sound⟩ := step.grown middle_sound
        obtain ⟨now, now_eq, outer_eq⟩ := grown.outer_eq middle_eq
        exact ⟨later_sound, now, now_eq, outer_eq.trans middle_outer_eq⟩
  exact both.2

/-- In a store that comes about, scopes lie inside earlier ones, so that looking a name up comes to
an end, and they stay there whatever is done afterwards.  Evaluating a construct in a scope touches
no other scope that exists, and in that one no name is lost.  A call touches none at all. -/
theorem grown_of_attained (attained : store.Attained) :
    (∀ (scope : ScopeId) (found : Scope) (outer : ScopeId), store.scopes[scope]? = some found →
      found.outer = some outer → outer < scope) ∧
    WellFounded store.Encloses ∧
    (∀ name scope, store.lookup name scope =
      (store.scopes[scope]?).bind fun found =>
        (found.find? name).or (found.outer.bind (store.lookup name))) ∧
    (∀ later, Relation.ReflTransGen Step store later →
      ∀ (scope : ScopeId) (found : Scope), store.scopes[scope]? = some found →
        ∃ now, later.scopes[scope]? = some now ∧ now.outer = found.outer) ∧
    ∀ depth,
      (∀ scope, scope < store.scopes.size →
        (∀ expr, store.Grown scope (evaluate depth expr scope store).2) ∧
        (∀ text, store.Grown scope (statement (evaluate depth) scope text store).2) ∧
        (∀ body, store.Grown scope (block (evaluate depth) scope body store).2) ∧
        ∀ text, store.Grown scope (program (evaluate depth) scope text store).2) ∧
      ∀ callee arguments, callee.LivesIn store →
        (∀ argument ∈ arguments, argument.LivesIn store) →
        ∀ scope, scope < store.scopes.size →
          (call (evaluate depth) callee arguments store).2.scopes[scope]? =
            store.scopes[scope]? := by
  have sound := attained.sound
  refine ⟨sound.links, sound.wellFounded_encloses, sound.lookup_eq,
    fun later steps scope found => outer_eq_of_steps sound steps, fun depth => ⟨?_, ?_⟩⟩
  · intro scope opened
    exact ⟨fun expr => (grown_expression sound opened expr).1,
      fun text => (grown_statement sound opened text).1,
      fun body => (grown_block sound opened body).1,
      fun text => (grown_program sound opened text).1⟩
  · intro callee arguments lives all_live scope opened
    have grown : store.Grown store.scopes.size
        (call (evaluate depth) callee arguments store).2 := (grown_call sound lives all_live _).1
    exact grown.untouched scope (Nat.ne_of_lt opened) opened

/-- A function that binds its parameter `x` and a name `y` leaves the scope that it captures as it
is, where evaluating the statements of its body binds `y`. -/
theorem grown_of_attained_sample :
    let store := (empty.enclose none).2.fresh.2
    let body : Block := .mk ⟨.openBrace, "\x7b", 6⟩
      [.binding ⟨.letWord, "let", 8⟩ ⟨.identifier, "y", 12⟩ (.boolean ⟨.trueWord, "true", 16⟩)]
    let callee : Value := .function 0 ["x"] body 0
    store.Attained ∧ 0 < store.scopes.size ∧ callee.LivesIn store ∧
      (∀ argument ∈ [Value.null], argument.LivesIn store) ∧
      (call (evaluate 30) callee [.null] store).2.scopes[0]? = store.scopes[0]? ∧
      store.Grown 0 (block (evaluate 30) 0 body store).2 ∧
      ∃ now, (block (evaluate 30) 0 body store).2.scopes[0]? = some now ∧ now.outer = none := by
  intro store body callee
  have attained : store.Attained := .tail (.single .create) .make
  have opened : 0 < store.scopes.size := by decide
  have lives : callee.LivesIn store := .function (by decide) opened ["x"] body
  have all_live : ∀ argument ∈ [Value.null], argument.LivesIn store :=
    List.forall_mem_singleton.mpr .null
  obtain ⟨-, -, -, stay, work⟩ := grown_of_attained attained
  obtain ⟨grown, untouched⟩ := work 30
  refine ⟨attained, opened, lives, all_live, untouched callee _ lives all_live 0 opened,
    (grown 0 opened).2.2.1 body, ?_⟩
  exact stay _ (.single (.block 30 opened body)) 0 ⟨none, []⟩ rfl

end Store
end MarmosetLang
