import MarmosetLang.Store

/-!
# What is left as it was

A call works in a scope of its own, and may leave all that was there as it was.  What can be seen
from a scope that was open is then the same as before.  What can be seen from the new one is what is
bound there, and around it what could be seen from the scope around.
-/

namespace MarmosetLang

namespace Scope

theorem valueOf?_append (name : String) (bindings others : List (String × Value)) :
    valueOf? name (bindings ++ others) = (valueOf? name bindings).or (valueOf? name others) := by
  induction bindings with
  | nil => rfl
  | cons first rest ih =>
      rw [List.cons_append, valueOf?, valueOf?]
      split
      · rfl
      · exact ih

theorem valueOf?_foldl_put {names : List String} (distinct : names.Nodup) (values : List Value)
    (bindings : List (String × Value)) (name : String) :
    valueOf? name ((names.zip values).foldl
      (fun bindings entry => put entry.1 entry.2 bindings) bindings) =
      (valueOf? name (names.zip values)).or (valueOf? name bindings) := by
  induction names generalizing values bindings with
  | nil => rfl
  | cons first names ih =>
      cases values with
      | nil => rfl
      | cons value values =>
          obtain ⟨apart, distinct⟩ := List.nodup_cons.mp distinct
          rw [List.zip_cons_cons, List.foldl_cons, ih distinct, valueOf?]
          split
          · rename_i same
            have unbound : valueOf? name (names.zip values) = none := by
              refine Option.eq_none_iff_forall_ne_some.mpr fun other bound => apart ?_
              change first = name at same
              rw [same]
              exact (List.of_mem_zip (mem_of_valueOf? bound)).1
            rw [unbound, ← same, valueOf?_put_self]
            rfl
          · rename_i differs
            rw [valueOf?_put_of_ne differs]

end Scope

namespace Store

theorem lookup_of_found {store : Store} {scope : ScopeId} {found : Scope}
    (found_eq : store.scopes[scope]? = some found) (name : String) :
    store.lookup name scope = (found.find? name).or
      (found.outer.bind fun outer => if outer < scope then store.lookup name outer else none) := by
  rw [lookup, found_eq]
  dsimp only
  cases found.find? name with
  | some value => rfl
  | none => cases found.outer <;> rfl

/-- What is seen from a scope depends on the scopes up to it alone. -/
theorem lookup_eq_of_below {store other : Store} {scope : ScopeId}
    (same : ∀ place ≤ scope, other.scopes[place]? = store.scopes[place]?) (name : String) :
    other.lookup name scope = store.lookup name scope := by
  induction scope using Nat.strongRecOn with
  | ind scope ih =>
      have here := same scope (Nat.le_refl scope)
      cases found_eq : store.scopes[scope]? with
      | none => rw [lookup, lookup.eq_def store, here, found_eq]
      | some found =>
          rw [lookup_of_found found_eq, lookup_of_found (here.trans found_eq)]
          congr 2
          funext outer
          split
          · rename_i earlier
            exact ih outer earlier fun place le =>
              same place (Nat.le_of_lt (Nat.lt_of_le_of_lt le earlier))
          · rfl

theorem lookup_bind {store : Store} {scope : ScopeId} (opened : scope < store.scopes.size)
    (name other : String) (value : Value) :
    (store.bind scope name value).lookup other scope =
      if name = other then some value else store.lookup other scope := by
  have found_eq := Array.getElem?_eq_getElem opened
  have bound_eq := store.getElem?_bind scope scope name value
  rw [if_pos rfl, found_eq, Option.map_some] at bound_eq
  rw [lookup_of_found bound_eq, lookup_of_found found_eq]
  by_cases same : name = other
  · rw [if_pos same, ← same, Scope.find?_bind_self, Option.some_or]
  · rw [if_neg same, Scope.find?_bind_of_ne _ same]
    congr 2
    funext outer
    split
    · rename_i earlier
      -- Scopes lie inside earlier ones, and those have not been touched.
      refine lookup_eq_of_below (fun place le => ?_) other
      rw [getElem?_bind, if_neg (Nat.ne_of_gt (Nat.lt_of_le_of_lt le earlier))]
    · rfl

/-- All scopes are still there as they were, though others may have been opened, and nothing has
been printed. -/
structure Spares (earlier later : Store) : Prop where
  /-- Nothing has been printed. -/
  output_eq : later.output = earlier.output
  /-- The scopes are as they were. -/
  scope_eq : ∀ {scope : ScopeId} {found : Scope}, earlier.scopes[scope]? = some found →
    later.scopes[scope]? = some found

namespace Spares

variable {earlier middle later : Store}

theorem refl (store : Store) : store.Spares store :=
  ⟨rfl, id⟩

theorem trans (first : earlier.Spares middle) (second : middle.Spares later) :
    earlier.Spares later :=
  ⟨second.output_eq.trans first.output_eq,
    fun found_eq => second.scope_eq (first.scope_eq found_eq)⟩

theorem fresh (spares : earlier.Spares later) : earlier.Spares later.fresh.2 :=
  ⟨spares.output_eq, spares.scope_eq⟩

theorem getElem?_eq (spares : earlier.Spares later) {scope : ScopeId}
    (opened : scope < earlier.scopes.size) : later.scopes[scope]? = earlier.scopes[scope]? := by
  have found_eq := Array.getElem?_eq_getElem opened
  rw [found_eq, spares.scope_eq found_eq]

theorem lt_size (spares : earlier.Spares later) {scope : ScopeId}
    (opened : scope < earlier.scopes.size) : scope < later.scopes.size := by
  have found_eq := spares.scope_eq (Array.getElem?_eq_getElem opened)
  exact (Array.getElem?_eq_some_iff.mp found_eq).1

theorem size_le (spares : earlier.Spares later) : earlier.scopes.size ≤ later.scopes.size :=
  Nat.le_of_not_lt fun fewer => Nat.lt_irrefl _ (spares.lt_size fewer)

theorem lookup_eq (spares : earlier.Spares later) {scope : ScopeId}
    (opened : scope < earlier.scopes.size) (name : String) :
    later.lookup name scope = earlier.lookup name scope :=
  lookup_eq_of_below
    (fun _ le => spares.getElem?_eq (Nat.lt_of_le_of_lt le opened)) name

/-- Names may be bound in a scope that was not there yet. -/
theorem bind (spares : earlier.Spares later) {scope : ScopeId}
    (unopened : earlier.scopes.size ≤ scope) (name : String) (value : Value) :
    earlier.Spares (later.bind scope name value) := by
  refine ⟨spares.output_eq, fun {place found} found_eq => ?_⟩
  have opened := (Array.getElem?_eq_some_iff.mp found_eq).1
  rw [getElem?_bind, if_neg (Nat.ne_of_gt (Nat.lt_of_lt_of_le opened unopened)),
    spares.scope_eq found_eq]

end Spares

theorem spares_enclose (store : Store) (outer : Option ScopeId) :
    store.Spares (store.enclose outer).2 := by
  refine ⟨rfl, fun {scope found} found_eq => ?_⟩
  have differs := Nat.ne_of_lt (Array.getElem?_eq_some_iff.mp found_eq).1
  rw [getElem?_enclose, if_neg differs, found_eq]

/-- The names of no builtin functions have been given another meaning. -/
def LeavesBuiltins (store : Store) (scope : ScopeId) : Prop :=
  ∀ builtin : Builtin, store.lookup builtin.name scope = none

/-- A scope has been opened inside another one, and names have been bound there. -/
structure Enters (store : Store) (outer scope : ScopeId) (bindings : List (String × Value))
    (inside : Store) : Prop where
  /-- Apart from this and from other new scopes, all is as it was. -/
  spares : store.Spares inside
  /-- The scope is a new one. -/
  unopened : store.scopes.size ≤ scope
  /-- It is open. -/
  opened : scope < inside.scopes.size
  /-- The names bound there come before those that can be seen from the scope around. -/
  lookup_eq : ∀ name, inside.lookup name scope =
    (Scope.valueOf? name bindings).or (store.lookup name outer)

namespace Enters

variable {store inside later : Store} {outer scope : ScopeId} {bindings : List (String × Value)}

theorem lookup_here (enters : store.Enters outer scope bindings inside) {name : String}
    {value : Value} (bound : Scope.valueOf? name bindings = some value) :
    inside.lookup name scope = some value := by
  rw [enters.lookup_eq, bound, Option.some_or]

theorem lookup_around (enters : store.Enters outer scope bindings inside) {name : String}
    (unbound : Scope.valueOf? name bindings = none) :
    inside.lookup name scope = store.lookup name outer := by
  rw [enters.lookup_eq, unbound, Option.none_or]

theorem leavesBuiltins (enters : store.Enters outer scope bindings inside)
    (builtins : store.LeavesBuiltins outer)
    (unnamed : ∀ builtin : Builtin, Scope.valueOf? builtin.name bindings = none) :
    inside.LeavesBuiltins scope := fun builtin =>
  (enters.lookup_around (unnamed builtin)).trans (builtins builtin)

theorem trans (enters : store.Enters outer scope bindings inside) (spares : inside.Spares later) :
    store.Enters outer scope bindings later where
  spares := enters.spares.trans spares
  unopened := enters.unopened
  opened := spares.lt_size enters.opened
  lookup_eq name := (spares.lookup_eq enters.opened name).trans (enters.lookup_eq name)

theorem bind (enters : store.Enters outer scope bindings inside) (name : String) (value : Value) :
    store.Enters outer scope ((name, value) :: bindings) (inside.bind scope name value) where
  spares := enters.spares.bind enters.unopened name value
  unopened := enters.unopened
  opened := Nat.lt_of_lt_of_eq enters.opened (inside.size_bind scope name value).symm
  lookup_eq other := by
    rw [lookup_bind enters.opened, enters.lookup_eq, Scope.valueOf?]
    split <;> rfl

/-- The scope around may have been there for longer. -/
theorem since {earlier : Store} (enters : store.Enters outer scope bindings inside)
    (spares : earlier.Spares store) (opened : outer < earlier.scopes.size) :
    earlier.Enters outer scope bindings inside where
  spares := spares.trans enters.spares
  unopened := Nat.le_trans spares.size_le enters.unopened
  opened := enters.opened
  lookup_eq name := (enters.lookup_eq name).trans (by rw [spares.lookup_eq opened])

/-- One scope is entered from within another one. -/
theorem append {middle : Store} {home : ScopeId} {around : List (String × Value)}
    (first : store.Enters outer home around middle)
    (second : middle.Enters home scope bindings inside) :
    store.Enters outer scope (bindings ++ around) inside where
  spares := first.spares.trans second.spares
  unopened := Nat.le_trans first.spares.size_le second.unopened
  opened := second.opened
  lookup_eq name := by
    rw [second.lookup_eq, first.lookup_eq, Scope.valueOf?_append, Option.or_assoc]

end Enters

end Store

end MarmosetLang
