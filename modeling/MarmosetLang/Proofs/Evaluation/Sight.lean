import MarmosetLang.Proofs.Evaluation.Reachability
import MarmosetLang.Proofs.Value.Every

/-!
# What can be seen from a scope

Evaluation in a scope can get at what is bound there, in the scopes around it, and in the scopes of
functions that it finds.  To show that all of this keeps a property it is enough to look at a region
of scopes that cannot be left: the ones that can be seen to begin with, and the ones that are not
opened yet.
-/

namespace MarmosetLang

namespace Value

variable {Holds : Value → Prop} {region : ScopeId → Prop} {value : Value}

/-- A value is no function of a scope outside a region. -/
def HomeIn (region : ScopeId → Prop) : Value → Prop
  | function _ _ _ scope => region scope
  | _ => True

theorem Every.confine (every : value.Every Holds)
    (inside : ∀ scope, value.Captures scope → region scope) :
    value.Every fun value => Holds value ∧ value.HomeIn region := by
  induction every with
  | integer here => exact .integer ⟨here, trivial⟩
  | boolean here => exact .boolean ⟨here, trivial⟩
  | null here => exact .null ⟨here, trivial⟩
  | string here => exact .string ⟨here, trivial⟩
  | array here _ ih =>
      exact .array ⟨here, trivial⟩ fun element member =>
        ih element member fun scope captures => inside scope (.element member captures)
  | hash here _ _ ih_keys ih_values =>
      exact .hash ⟨here, trivial⟩
        (fun entry member => ih_keys entry member fun scope captures =>
          inside scope (.key member captures))
        fun entry member => ih_values entry member fun scope captures =>
          inside scope (.value member captures)
  | function here => exact .function ⟨here, inside _ .function⟩
  | builtin here => exact .builtin ⟨here, trivial⟩
  | returned here _ ih =>
      exact .returned ⟨here, trivial⟩ (ih fun scope captures => inside scope (.returned captures))
  | error here => exact .error ⟨here, trivial⟩

theorem Every.region_of_captures
    (every : value.Every fun value => Holds value ∧ value.HomeIn region) {scope : ScopeId}
    (captures : value.Captures scope) : region scope := by
  induction captures with
  | function => exact every.here.2
  | element member _ ih =>
      cases every with
      | array _ inside => exact ih (inside _ member)
  | key member _ ih =>
      cases every with
      | hash _ keys _ => exact ih (keys _ member)
  | value member _ ih =>
      cases every with
      | hash _ _ values => exact ih (values _ member)
  | returned _ ih =>
      cases every with
      | returned _ inside => exact ih inside

end Value

namespace Store

/-- A scope can be seen from another one: from itself, from those inside it, and from those that
bind a value that captures it. -/
inductive Sees (store : Store) (home : ScopeId) : ScopeId → Prop where
  | here : Sees store home home
  | outer {scope around : ScopeId} {found : Scope} (seen : Sees store home scope)
      (found_eq : store.scopes[scope]? = some found) (outer_eq : found.outer = some around) :
      Sees store home around
  | bound {scope place : ScopeId} {found : Scope} {name : String} {value : Value}
      (seen : Sees store home scope) (found_eq : store.scopes[scope]? = some found)
      (bound : found.find? name = some value) (captures : value.Captures place) :
      Sees store home place

/-- Everything bound in a scope that can be seen from a given one has a property. -/
def HoldsFrom (store : Store) (Holds : Value → Prop) (home : ScopeId) : Prop :=
  ∀ scope found name value, store.Sees home scope → store.scopes[scope]? = some found →
    found.find? name = some value → value.Every Holds

/-- What holds of everything bound in a store holds of all that can be seen from a scope. -/
theorem holdsFrom_of_forall {store : Store} {Holds : Value → Prop}
    (every : ∀ scope ∈ store.scopes, ∀ binding ∈ scope.bindings, binding.2.Every Holds)
    (home : ScopeId) : store.HoldsFrom Holds home :=
  fun _ found _ _ _ found_eq bound =>
    every found (Array.mem_of_getElem? found_eq) _ (Scope.mem_of_valueOf? bound)

/-- Everything bound in the scopes of a region has a property.  The region cannot be left, and new
scopes belong to it. -/
structure Confined (store : Store) (region : ScopeId → Prop) (Holds : Value → Prop) : Prop where
  /-- Scopes not opened yet are in the region. -/
  ahead : ∀ scope, store.scopes.size ≤ scope → region scope
  /-- Scopes in the region lie inside other ones in it. -/
  outer : ∀ scope found around, region scope → store.scopes[scope]? = some found →
    found.outer = some around → region around
  /-- What is bound in them has the property. -/
  bound : ∀ scope found name value, region scope → store.scopes[scope]? = some found →
    found.find? name = some value → value.Every Holds

namespace Confined

variable {store : Store} {region : ScopeId → Prop} {Holds : Value → Prop}

theorem every_of_lookup (confined : store.Confined region Holds) {name : String} {scope : ScopeId}
    {value : Value} (inside : region scope) (found : store.lookup name scope = some value) :
    value.Every Holds := by
  fun_induction Store.lookup store name scope with
  | case1 => cases found
  | case2 scope here here_eq value bound =>
      cases found
      exact confined.bound scope here name value inside here_eq bound
  | case3 => cases found
  | case4 scope here here_eq unbound outer outer_eq earlier ih =>
      exact ih (confined.outer scope here outer inside here_eq outer_eq) found
  | case5 => cases found

theorem bind (confined : store.Confined region Holds) (scope : ScopeId) (name : String)
    {value : Value} (every : value.Every Holds) :
    (store.bind scope name value).Confined region Holds where
  ahead place beyond := confined.ahead place (by rwa [size_bind] at beyond)
  outer place found around inside found_eq outer_eq := by
    rw [getElem?_bind] at found_eq
    split at found_eq
    · obtain ⟨old, old_eq, rfl⟩ := Option.map_eq_some_iff.mp found_eq
      exact confined.outer place old around inside old_eq outer_eq
    · exact confined.outer place found around inside found_eq outer_eq
  bound place found other held inside found_eq bound := by
    rw [getElem?_bind] at found_eq
    split at found_eq
    · obtain ⟨old, old_eq, rfl⟩ := Option.map_eq_some_iff.mp found_eq
      by_cases same : name = other
      · subst same
        rw [Scope.find?_bind_self] at bound
        cases bound
        exact every
      · rw [Scope.find?_bind_of_ne _ same] at bound
        exact confined.bound place old other held inside old_eq bound
    · exact confined.bound place found other held inside found_eq bound

theorem enclose (confined : store.Confined region Holds) {outer : ScopeId}
    (inside : region outer) : (store.enclose (some outer)).2.Confined region Holds where
  ahead place beyond := by
    rw [size_enclose] at beyond
    exact confined.ahead place (Nat.le_of_succ_le beyond)
  outer place found around place_inside found_eq outer_eq := by
    rw [getElem?_enclose] at found_eq
    split at found_eq
    · cases found_eq
      cases outer_eq
      exact inside
    · exact confined.outer place found around place_inside found_eq outer_eq
  bound place found name value place_inside found_eq bound := by
    rw [getElem?_enclose] at found_eq
    split at found_eq
    · cases found_eq
      exact nomatch bound
    · exact confined.bound place found name value place_inside found_eq bound

theorem of_scopes_eq {later : Store} (confined : store.Confined region Holds)
    (scopes_eq : later.scopes = store.scopes) : later.Confined region Holds where
  ahead place beyond := confined.ahead place (scopes_eq ▸ beyond)
  outer place found around inside found_eq :=
    confined.outer place found around inside (scopes_eq ▸ found_eq)
  bound place found name value inside found_eq :=
    confined.bound place found name value inside (scopes_eq ▸ found_eq)

theorem print (confined : store.Confined region Holds) (lines : List String) :
    (lines.foldl Store.print store).Confined region Holds := by
  induction lines generalizing store with
  | nil => exact confined
  | cons first rest ih => exact ih (confined.of_scopes_eq rfl)

/-- What can be seen from a region is in it. -/
theorem region_of_sees
    (confined : store.Confined region fun value => Holds value ∧ value.HomeIn region)
    {home scope : ScopeId} (inside : region home) (seen : store.Sees home scope) :
    region scope := by
  induction seen with
  | here => exact inside
  | outer _ found_eq outer_eq ih => exact confined.outer _ _ _ ih found_eq outer_eq
  | bound _ found_eq bound captures ih =>
      exact (confined.bound _ _ _ _ ih found_eq bound).region_of_captures captures

theorem holdsFrom (confined : store.Confined region fun value => Holds value ∧ value.HomeIn region)
    {home : ScopeId} (inside : region home) : store.HoldsFrom Holds home :=
  fun scope found name value seen found_eq bound =>
    (confined.bound scope found name value (confined.region_of_sees inside seen) found_eq
      bound).mono fun _ => And.left

end Confined

/-- Where all that can be seen has a property, nothing else is in the region of what can be seen and
what is still to come. -/
theorem HoldsFrom.confined {store : Store} {Holds : Value → Prop} {home : ScopeId}
    (holds : store.HoldsFrom Holds home) :
    let region := fun scope => store.Sees home scope ∨ store.scopes.size ≤ scope
    store.Confined region fun value => Holds value ∧ value.HomeIn region := by
  intro region
  -- A scope of the region that is open already is one that can be seen.
  have seen_of_open {scope : ScopeId} {found : Scope} (inside : region scope)
      (found_eq : store.scopes[scope]? = some found) : store.Sees home scope := by
    obtain ⟨opened, -⟩ := Array.getElem?_eq_some_iff.mp found_eq
    exact inside.resolve_right (Nat.not_le_of_lt opened)
  refine ⟨fun scope beyond => .inr beyond, ?_, ?_⟩
  · intro scope found around inside found_eq outer_eq
    exact .inl (.outer (seen_of_open inside found_eq) found_eq outer_eq)
  · intro scope found name value inside found_eq bound
    have seen := seen_of_open inside found_eq
    exact (holds scope found name value seen found_eq bound).confine fun place captures =>
      .inl (.bound seen found_eq bound captures)

end Store

end MarmosetLang
