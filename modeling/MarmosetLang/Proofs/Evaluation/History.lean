import MarmosetLang.Proofs.Evaluation.Frame

/-!
# Histories of scopes

Scopes may be opened, names bound and looked up in any order and over any number of scopes.  A
history tells what has been done to them, and what it says is put down here without a store: which
scope lies inside which, and what a name was last bound to in a scope.  Looking a name up gives what
it was last bound to in the nearest scope, from the one at hand outwards, in which it was ever
bound.
-/

namespace MarmosetLang

open Relation

/-- What may be done to scopes. -/
inductive Event where
  /-- A scope is opened inside another one, or on its own. -/
  | enclose (outer : Option ScopeId)
  /-- A name is bound in a scope. -/
  | bind (scope : ScopeId) (name : String) (value : Value)
  /-- A name is looked up from a scope. -/
  | lookup (scope : ScopeId) (name : String)

/-- The store after an event. -/
def Event.perform (store : Store) : Event → Store
  | enclose outer => (store.enclose outer).2
  | bind scope name value => store.bind scope name value
  | lookup _ _ => store

/-- What has been done to scopes, the latest event first. -/
abbrev History := List Event

namespace History

/-- The store that a history leads to. -/
def replay : History → Store
  | [] => Store.empty
  | event :: earlier => event.perform (replay earlier)

/-- The scopes in the order of their creation, each given by the scope around it. -/
def openings : History → List (Option ScopeId)
  | [] => []
  | .enclose outer :: earlier => openings earlier ++ [outer]
  | .bind _ _ _ :: earlier => openings earlier
  | .lookup _ _ :: earlier => openings earlier

/-- All events are about scopes that have been opened before. -/
inductive Proper : History → Prop where
  | start : Proper []
  | enclose {earlier : History} {outer : Option ScopeId} (proper : Proper earlier)
      (opened : ∀ place, outer = some place → place < (openings earlier).length) :
      Proper (.enclose outer :: earlier)
  | bind {earlier : History} {scope : ScopeId} (proper : Proper earlier)
      (opened : scope < (openings earlier).length) (name : String) (value : Value) :
      Proper (.bind scope name value :: earlier)
  | lookup {earlier : History} {scope : ScopeId} (proper : Proper earlier)
      (opened : scope < (openings earlier).length) (name : String) :
      Proper (.lookup scope name :: earlier)

/-- A scope was opened inside another one. -/
def Inside (history : History) (scope outer : ScopeId) : Prop :=
  (openings history)[scope]? = some (some outer)

/-- A name was never bound in a scope. -/
def Unset (history : History) (scope : ScopeId) (name : String) : Prop :=
  ∀ value, .bind scope name value ∉ history

/-- A name was bound to a value in a scope, and never again there. -/
def LastBound (history : History) (scope : ScopeId) (name : String) (value : Value) : Prop :=
  ∃ later earlier, history = later ++ .bind scope name value :: earlier ∧ Unset later scope name

/-- From one scope outwards another one is reached, and a name was never bound before that one. -/
def Reaches (history : History) (name : String) : ScopeId → ScopeId → Prop :=
  ReflTransGen fun scope outer => Unset history scope name ∧ Inside history scope outer

variable {history : History} {scope outer place : ScopeId} {name : String} {value : Value}

/-! ## What a history says -/

theorem unset_cons (event : Event) :
    Unset (event :: history) scope name ↔
      (∀ value, event ≠ .bind scope name value) ∧ Unset history scope name := by
  simp only [Unset, List.mem_cons, not_or, forall_and, ne_comm]

theorem lastBound_cons (event : Event) :
    LastBound (event :: history) scope name value ↔
      event = .bind scope name value ∨
        (∀ other, event ≠ .bind scope name other) ∧ LastBound history scope name value := by
  constructor
  · rintro ⟨_ | ⟨first, later⟩, earlier, history_eq, unset⟩
    · exact .inl (List.cons.inj history_eq).1
    · obtain ⟨rfl, rest_eq⟩ := List.cons.inj history_eq
      obtain ⟨differs, later_unset⟩ := (unset_cons event).mp unset
      exact .inr ⟨differs, later, earlier, rest_eq, later_unset⟩
  · rintro (rfl | ⟨differs, later, earlier, rfl, unset⟩)
    · exact ⟨[], history, rfl, fun _ => List.not_mem_nil⟩
    · exact ⟨event :: later, earlier, rfl, (unset_cons event).mpr ⟨differs, unset⟩⟩

theorem unset_or_lastBound (history : History) (scope : ScopeId) (name : String) :
    Unset history scope name ∨ ∃ value, LastBound history scope name value := by
  induction history with
  | nil => exact .inl fun _ => List.not_mem_nil
  | cons event earlier ih =>
      by_cases binds : ∃ value, event = .bind scope name value
      · obtain ⟨value, rfl⟩ := binds
        exact .inr ⟨value, (lastBound_cons _).mpr (.inl rfl)⟩
      · rw [not_exists] at binds
        refine ih.imp (fun unset => (unset_cons event).mpr ⟨binds, unset⟩) ?_
        rintro ⟨value, bound⟩
        exact ⟨value, (lastBound_cons event).mpr (.inr ⟨binds, bound⟩)⟩

theorem Unset.not_lastBound (unset : Unset history scope name) (value : Value) :
    ¬LastBound history scope name value := by
  rintro ⟨later, earlier, rfl, -⟩
  exact unset value (List.mem_append_right later List.mem_cons_self)

theorem Proper.earlier_of_inside (proper : Proper history) (inside : Inside history scope outer) :
    outer < scope := by
  unfold Inside at inside
  induction proper with
  | start => cases inside
  | @enclose earlier around _ opened ih =>
      rw [openings, List.getElem?_append] at inside
      split at inside
      · exact ih inside
      · rename_i is_new
        obtain ⟨rfl, rfl⟩ : scope = (openings earlier).length ∧ around = some outer := by
          grind
        exact opened outer rfl
  | bind _ _ _ _ ih | lookup _ _ _ ih => exact ih inside

theorem Reaches.inside (reaches : Reaches history name scope place) :
    ReflTransGen (Inside history) scope place :=
  ReflTransGen.mono (fun _ _ => And.right) _ _ reaches

theorem Proper.le_of_inside (proper : Proper history)
    (inside : ReflTransGen (Inside history) scope place) : place ≤ scope := by
  induction inside with
  | refl => exact Nat.le_refl scope
  | tail _ inside ih => exact Nat.le_trans (Nat.le_of_lt (proper.earlier_of_inside inside)) ih

/-- Going outwards one comes to a scope where the name was bound, or else to one with none
around. -/
theorem Proper.exists_reaches (proper : Proper history) (name : String) (scope : ScopeId) :
    ∃ place, Reaches history name scope place ∧
      ((∃ value, LastBound history place name value) ∨
        Unset history place name ∧ ∀ outer, ¬Inside history place outer) := by
  induction scope using Nat.strongRecOn with
  | ind scope ih =>
      rcases unset_or_lastBound history scope name with unset | bound
      · by_cases inside : ∃ outer, Inside history scope outer
        · obtain ⟨outer, inside⟩ := inside
          obtain ⟨place, reaches, rest⟩ := ih outer (proper.earlier_of_inside inside)
          exact ⟨place, .head ⟨unset, inside⟩ reaches, rest⟩
        · exact ⟨scope, .refl, .inr ⟨unset, not_exists.mp inside⟩⟩
      · exact ⟨scope, .refl, .inl bound⟩

/-! ## The store that a history leads to -/

theorem size_replay (history : History) :
    (replay history).scopes.size = (openings history).length := by
  fun_induction openings history with
  | case1 => rfl
  | case2 outer earlier ih => simp [replay, Event.perform, Store.size_enclose, ih]
  | case3 scope name value earlier ih => simp [replay, Event.perform, Store.size_bind, ih]
  | case4 scope name earlier ih => exact ih

theorem outer_replay (history : History) (scope : ScopeId) :
    ((replay history).scopes[scope]?).map Scope.outer = (openings history)[scope]? := by
  fun_induction openings history with
  | case1 => simp [replay, Store.empty]
  | case2 outer earlier ih =>
      rw [replay, Event.perform, Store.getElem?_enclose, size_replay]
      split
      · rename_i is_new
        simp [is_new]
      · rename_i is_old
        rw [ih]
        grind
  | case3 place name value earlier ih =>
      rw [replay, Event.perform, Store.getElem?_bind, ← ih]
      split
      · rw [Option.map_map]
        rfl
      · rfl
  | case4 place name earlier ih => exact ih

theorem encloses_replay_iff :
    (replay history).Encloses outer scope ↔ Inside history scope outer := by
  rw [Inside, ← outer_replay, Option.map_eq_some_iff]
  rfl

theorem Proper.find?_replay_iff (proper : Proper history) :
    ((replay history).scopes[scope]?).bind (·.find? name) = some value ↔
      LastBound history scope name value := by
  induction proper with
  | start => simp [replay, Store.empty, LastBound]
  | @enclose earlier around _ _ ih =>
      rw [lastBound_cons, replay, Event.perform, Store.getElem?_enclose]
      simp only [reduceCtorEq, false_or, ne_eq, not_false_eq_true, implies_true, true_and, ← ih]
      split
      · rename_i is_new
        simp [is_new, Scope.find?, Scope.valueOf?]
      · rfl
  | @bind earlier home _ opened other bound ih =>
      rw [lastBound_cons, replay, Event.perform, Store.getElem?_bind, ← ih]
      rw [← size_replay] at opened
      obtain ⟨found, found_eq⟩ : ∃ found, (replay earlier).scopes[home]? = some found :=
        ⟨_, Array.getElem?_eq_getElem opened⟩
      by_cases here : home = scope
      · subst here
        by_cases same : other = name
        · subst same
          simp [found_eq, Scope.find?_bind_self]
        · simp [found_eq, Scope.find?_bind_of_ne _ same, same]
      · simp [here]
  | lookup _ _ _ ih =>
      rw [lastBound_cons, replay, Event.perform, ih]
      simp

/-! ## Looking a name up -/

namespace Proper

variable (proper : Proper history)

include proper

theorem lookup_eq (name : String) (scope : ScopeId) :
    (replay history).lookup name scope =
      ((replay history).scopes[scope]?).bind fun found =>
        (found.find? name).or (found.outer.bind ((replay history).lookup name)) :=
  Store.lookup_eq_of_links
    (fun _ _ encloses => proper.earlier_of_inside (encloses_replay_iff.mp encloses)) name scope

theorem lookup_of_lastBound (bound : LastBound history scope name value) :
    (replay history).lookup name scope = some value := by
  obtain ⟨found, found_eq, find_eq⟩ :=
    Option.bind_eq_some_iff.mp (proper.find?_replay_iff.mpr bound)
  rw [proper.lookup_eq, found_eq, Option.bind_some, find_eq, Option.some_or]

theorem find?_eq_none (unset : Unset history scope name) {found : Scope}
    (found_eq : (replay history).scopes[scope]? = some found) : found.find? name = none := by
  rw [Option.eq_none_iff_forall_ne_some]
  intro value find_eq
  apply unset.not_lastBound value
  rw [← proper.find?_replay_iff, found_eq]
  exact find_eq

theorem lookup_of_inside (unset : Unset history scope name) (inside : Inside history scope outer) :
    (replay history).lookup name scope = (replay history).lookup name outer := by
  obtain ⟨found, found_eq, outer_eq⟩ := encloses_replay_iff.mpr inside
  rw [proper.lookup_eq, found_eq, Option.bind_some, proper.find?_eq_none unset found_eq, outer_eq]
  rfl

theorem lookup_of_outermost (unset : Unset history scope name)
    (outermost : ∀ outer, ¬Inside history scope outer) :
    (replay history).lookup name scope = none := by
  rw [proper.lookup_eq]
  cases found_eq : (replay history).scopes[scope]? with
  | none => rfl
  | some found =>
      rw [Option.bind_some, proper.find?_eq_none unset found_eq]
      cases outer_eq : found.outer with
      | none => rfl
      | some outer =>
          exact absurd (encloses_replay_iff.mp ⟨found, found_eq, outer_eq⟩) (outermost outer)

theorem lookup_of_reaches (reaches : Reaches history name scope place) :
    (replay history).lookup name scope = (replay history).lookup name place := by
  induction reaches using ReflTransGen.head_induction_on with
  | refl => rfl
  | head step _ ih => exact (proper.lookup_of_inside step.1 step.2).trans ih

theorem lookup_eq_some_iff :
    (replay history).lookup name scope = some value ↔
      ∃ place, Reaches history name scope place ∧ LastBound history place name value := by
  constructor
  · intro found
    obtain ⟨place, reaches, ⟨other, bound⟩ | ⟨unset, outermost⟩⟩ := proper.exists_reaches name scope
    · rw [proper.lookup_of_reaches reaches, proper.lookup_of_lastBound bound] at found
      cases found
      exact ⟨place, reaches, bound⟩
    · rw [proper.lookup_of_reaches reaches, proper.lookup_of_outermost unset outermost] at found
      cases found
  · rintro ⟨place, reaches, bound⟩
    rw [proper.lookup_of_reaches reaches, proper.lookup_of_lastBound bound]

theorem unset_of_lookup_eq_none (inside : ReflTransGen (Inside history) scope place)
    (missing : (replay history).lookup name scope = none) : Unset history place name := by
  have unset_of_missing {place : ScopeId} (missing : (replay history).lookup name place = none) :
      Unset history place name := by
    refine (unset_or_lastBound history place name).resolve_right ?_
    rintro ⟨value, bound⟩
    rw [proper.lookup_of_lastBound bound] at missing
    cases missing
  induction inside using ReflTransGen.head_induction_on with
  | refl => exact unset_of_missing missing
  | head step _ ih =>
      exact ih ((proper.lookup_of_inside (unset_of_missing missing) step).symm.trans missing)

theorem lookup_eq_none_iff :
    (replay history).lookup name scope = none ↔
      ∀ place, ReflTransGen (Inside history) scope place → Unset history place name := by
  refine ⟨fun missing place inside => proper.unset_of_lookup_eq_none inside missing, ?_⟩
  intro never
  obtain ⟨place, reaches, ⟨value, bound⟩ | ⟨unset, outermost⟩⟩ := proper.exists_reaches name scope
  · exact absurd bound ((never place reaches.inside).not_lastBound value)
  · rw [proper.lookup_of_reaches reaches, proper.lookup_of_outermost unset outermost]

/-! ## Binding a name -/

theorem lookup_bind_of_reaches {asked : ScopeId} (opened : scope < (openings history).length)
    (value : Value) (reaches : Reaches history name asked scope) :
    (replay (.bind scope name value :: history)).lookup name asked = some value := by
  have later_proper := proper.bind opened name value
  have bound : LastBound (.bind scope name value :: history) scope name value :=
    (lastBound_cons _).mpr (.inl rfl)
  induction reaches using ReflTransGen.head_induction_on with
  | refl => exact later_proper.lookup_of_lastBound bound
  | @head asked outer step _ ih =>
      by_cases same : scope = asked
      · rw [← same]
        exact later_proper.lookup_of_lastBound bound
      · have unset : Unset (.bind scope name value :: history) asked name :=
          (unset_cons _).mpr ⟨fun other => by simp [same], step.1⟩
        exact (later_proper.lookup_of_inside unset step.2).trans ih

theorem lookup_bind_of_not_reaches {asked : ScopeId} {other : String}
    (opened : scope < (openings history).length) (value : Value)
    (apart : ¬(other = name ∧ Reaches history name asked scope)) :
    (replay (.bind scope name value :: history)).lookup other asked =
      (replay history).lookup other asked := by
  have later_proper := proper.bind opened name value
  induction asked using Nat.strongRecOn with
  | ind asked ih =>
      -- If the name were bound at the asking scope, the search would reach it at once.
      have differs (bound : Value) :
          Event.bind scope name value ≠ .bind asked other bound := by
        intro same
        injection same with scope_eq name_eq
        exact apart ⟨name_eq.symm, scope_eq ▸ .refl⟩
      rcases unset_or_lastBound history asked other with unset | ⟨bound, last⟩
      · have still_unset := (unset_cons (.bind scope name value)).mpr ⟨differs, unset⟩
        by_cases inside : ∃ outer, Inside history asked outer
        · obtain ⟨outer, inside⟩ := inside
          have around_apart : ¬(other = name ∧ Reaches history name outer scope) := by
            rintro ⟨rfl, reaches⟩
            exact apart ⟨rfl, .head ⟨unset, inside⟩ reaches⟩
          rw [later_proper.lookup_of_inside still_unset inside,
            proper.lookup_of_inside unset inside]
          exact ih outer (proper.earlier_of_inside inside) around_apart
        · rw [proper.lookup_of_outermost unset (not_exists.mp inside),
            later_proper.lookup_of_outermost still_unset (not_exists.mp inside)]
      · rw [proper.lookup_of_lastBound last,
          later_proper.lookup_of_lastBound ((lastBound_cons _).mpr (.inr ⟨differs, last⟩))]

theorem not_reaches_of_around {around : ScopeId} (inside : TransGen (Inside history) scope around) :
    ¬Reaches history name around scope := by
  intro reaches
  obtain ⟨outer, first, rest⟩ := TransGen.head'_iff.mp inside
  have outer_earlier := proper.earlier_of_inside first
  have around_earlier := Nat.lt_of_le_of_lt (proper.le_of_inside rest) outer_earlier
  exact Nat.not_le_of_lt around_earlier (proper.le_of_inside reaches.inside)

end Proper

/-- Scopes are numbered in the order of their creation.  Looking a name up comes to an end.  It
gives what the name was last bound to in the nearest scope, from the one at hand outwards, in which
it was ever bound, and nothing if there is none.  Binding a name in a scope makes it the answer for
that name where the search reaches the scope, and leaves all other answers as they are, those in the
scopes around in particular. -/
theorem lookup_of_history {history : History} (proper : Proper history) :
    (∀ outer, ((replay history).enclose outer).1 = (openings history).length) ∧
    WellFounded (replay history).Encloses ∧
    (∀ name scope, (replay history).lookup name scope =
      ((replay history).scopes[scope]?).bind fun found =>
        (found.find? name).or (found.outer.bind ((replay history).lookup name))) ∧
    (∀ name scope value, (replay history).lookup name scope = some value ↔
      ∃ place, Reaches history name scope place ∧ LastBound history place name value) ∧
    (∀ name scope, (replay history).lookup name scope = none ↔
      ∀ place, ReflTransGen (Inside history) scope place → Unset history place name) ∧
    ∀ scope name value, scope < (openings history).length →
      (∀ asked, Reaches history name asked scope →
        (replay (.bind scope name value :: history)).lookup name asked = some value) ∧
      (∀ other asked, ¬(other = name ∧ Reaches history name asked scope) →
        (replay (.bind scope name value :: history)).lookup other asked =
          (replay history).lookup other asked) ∧
      ∀ other around, TransGen (Inside history) scope around →
        (replay (.bind scope name value :: history)).lookup other around =
          (replay history).lookup other around := by
  have links (outer scope : ScopeId) (encloses : (replay history).Encloses outer scope) :=
    proper.earlier_of_inside (encloses_replay_iff.mp encloses)
  refine ⟨fun _ => size_replay history, Store.wellFounded_encloses_of_links links, proper.lookup_eq,
    fun name scope value => proper.lookup_eq_some_iff,
    fun name scope => proper.lookup_eq_none_iff, ?_⟩
  intro scope name value opened
  refine ⟨fun asked => proper.lookup_bind_of_reaches opened value,
    fun other asked => proper.lookup_bind_of_not_reaches opened value, ?_⟩
  intro other around inside
  exact proper.lookup_bind_of_not_reaches opened value fun ⟨_, reaches⟩ =>
    proper.not_reaches_of_around inside reaches

/-- Of three scopes inside one another, `x` is bound in the outermost one when the others are open,
and then in the middle one. -/
theorem lookup_of_history_sample :
    let history : History :=
      [.bind 0 "x" (.boolean true), .enclose (some 1), .enclose (some 0), .enclose none]
    let later : History := .bind 1 "x" (.boolean false) :: history
    Proper history ∧ (replay history).lookup "x" 2 = some (.boolean true) ∧
      1 < (openings history).length ∧ Reaches history "x" 2 1 ∧
      (replay later).lookup "x" 2 = some (.boolean false) ∧ TransGen (Inside history) 1 0 ∧
      (replay later).lookup "x" 0 = (replay history).lookup "x" 0 ∧
      ¬("y" = "x" ∧ Reaches history "x" 2 1) ∧
      (replay later).lookup "y" 2 = (replay history).lookup "y" 2 := by
  intro history later
  have proper : Proper history := by
    refine .bind (.enclose (.enclose (.enclose .start ?_) ?_) ?_) ?_ _ _ <;> simp [openings]
  have unset (scope : ScopeId) (inner : scope ≠ 0) : Unset history scope "x" := by
    simp [Unset, history, inner]
  obtain ⟨-, -, -, found, -, binding⟩ := lookup_of_history proper
  have first : Reaches history "x" 2 1 := .single ⟨unset 2 (by decide), rfl⟩
  have second : Reaches history "x" 2 0 := first.tail ⟨unset 1 (by decide), rfl⟩
  have opened : 1 < (openings history).length := by decide
  have around : TransGen (Inside history) 1 0 := .single rfl
  have apart : ¬("y" = "x" ∧ Reaches history "x" 2 1) := fun same => absurd same.1 (by decide)
  have last : LastBound history 0 "x" (.boolean true) := ⟨[], _, rfl, fun _ => List.not_mem_nil⟩
  obtain ⟨reached, unreached, outside⟩ := binding 1 "x" (.boolean false) opened
  exact ⟨proper, (found "x" 2 _).mpr ⟨0, second, last⟩, opened, first, reached 2 first, around,
    outside "x" 0 around, apart, unreached "y" 2 apart⟩

end History
end MarmosetLang
