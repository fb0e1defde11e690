import MarmosetLang.Proofs.Value.Alike
import MarmosetLang.Store

/-!
# Displaced values

Functions keep their bodies, and these know where in the text they stood.  A value whose tokens are
at other places is alike to the one before, and no other value is.
-/

namespace MarmosetLang
namespace Value

mutual

/-- The value with the tokens of its functions at other places. -/
def relocate (move : Nat → Nat) : Value → Value
  | integer serial number => integer serial number
  | boolean truth => boolean truth
  | null => null
  | string serial text => string serial text
  | array serial elements => array serial (relocateEach move elements)
  | hash serial entries => hash serial (relocateEntries move entries)
  | function serial parameters body scope =>
      function serial parameters (body.relocate move) scope
  | builtin which => builtin which
  | returned serial value => returned serial (relocate move value)
  | error serial mistake => error serial mistake

/-- The values with the tokens of their functions at other places. -/
def relocateEach (move : Nat → Nat) : List Value → List Value
  | [] => []
  | first :: rest => relocate move first :: relocateEach move rest

/-- The entries with the tokens of their functions at other places. -/
def relocateEntries (move : Nat → Nat) : List (Entry Value) → List (Entry Value)
  | [] => []
  | ⟨slot, key, value⟩ :: rest =>
      ⟨slot, relocate move key, relocate move value⟩ :: relocateEntries move rest

end

variable {move : Nat → Nat}

theorem relocateEach_eq_map (values : List Value) :
    relocateEach move values = values.map (relocate move) := by
  induction values with
  | nil => rw [relocateEach, List.map_nil]
  | cons first rest ih => rw [relocateEach, List.map_cons, ih]

theorem relocateEntries_eq_map (entries : List (Entry Value)) :
    relocateEntries move entries = entries.map fun entry =>
      ⟨entry.slot, entry.key.relocate move, entry.value.relocate move⟩ := by
  induction entries with
  | nil => rw [relocateEntries, List.map_nil]
  | cons first rest ih => rw [relocateEntries, List.map_cons, ih]

mutual

theorem alike_relocate (move : Nat → Nat) (value : Value) :
    Alike Eq Eq move value (value.relocate move) := by
  match value with
  | integer _ _ | string _ _ | error _ _ => rw [relocate]; constructor; rfl
  | boolean _ | null | builtin _ => rw [relocate]; constructor
  | array _ elements =>
      rw [relocate]
      exact .ofElements rfl (alikeEach_relocate move elements)
  | hash _ entries =>
      rw [relocate]
      exact .ofEntries rfl (paired_relocate move entries)
  | function _ _ _ _ =>
      rw [relocate]
      exact .function rfl rfl
  | returned _ value =>
      rw [relocate]
      exact .returned rfl (alike_relocate move value)

theorem alikeEach_relocate (move : Nat → Nat) (values : List Value) :
    List.Forall₂ (Alike Eq Eq move) values (relocateEach move values) := by
  match values with
  | [] =>
      rw [relocateEach]
      exact .nil
  | first :: rest =>
      rw [relocateEach]
      exact .cons (alike_relocate move first) (alikeEach_relocate move rest)

theorem paired_relocate (move : Nat → Nat) (entries : List (Entry Value)) :
    List.Forall₂ (Entry.Paired (Alike Eq Eq move)) entries (relocateEntries move entries) := by
  match entries with
  | [] =>
      rw [relocateEntries]
      exact .nil
  | ⟨_, key, value⟩ :: rest =>
      rw [relocateEntries]
      exact .cons ⟨rfl, alike_relocate move key, alike_relocate move value⟩
        (paired_relocate move rest)

end

/-- Where serial numbers and scopes stand for themselves, a value is alike to one other only. -/
theorem Alike.eq_relocate {value copy : Value} (alike : Alike Eq Eq move value copy) :
    copy = value.relocate move := by
  induction alike with
  | integer paired | string paired | error paired => rw [relocate, paired]
  | boolean | null | builtin => rw [relocate]
  | @array _ _ elements others paired length_eq _ each =>
      have others_eq : elements.map (relocate move) = others.map id :=
        map_eq_of_zip length_eq fun pair member => (each pair member).symm
      rw [relocate, relocateEach_eq_map, paired, others_eq, List.map_id]
  | @hash _ _ entries others paired length_eq slots _ _ keys values =>
      have others_eq : relocateEntries move entries = others.map id := by
        rw [relocateEntries_eq_map]
        refine map_eq_of_zip length_eq fun pair member => ?_
        rw [slots pair member, ← keys pair member, ← values pair member]
        rfl
      rw [relocate, paired, others_eq, List.map_id]
  | function paired captured => rw [relocate, paired, captured]
  | returned paired _ alike => rw [relocate, paired, alike]

/-- A value with its tokens at other places is displayed as it was. -/
theorem render_relocate (move : Nat → Nat) (value : Value) :
    (value.relocate move).render = value.render :=
  (alike_relocate move value).render_eq.symm

end Value

/-- The scope with the tokens of all functions bound in it at other places. -/
def Scope.relocate (move : Nat → Nat) (scope : Scope) : Scope :=
  { scope with bindings := scope.bindings.map (Prod.map id (Value.relocate move)) }

/-- The store with the tokens of all functions in it at other places. -/
def Store.relocate (move : Nat → Nat) (store : Store) : Store :=
  { store with scopes := store.scopes.map (Scope.relocate move) }

section

variable (move : Nat → Nat)

theorem Scope.valueOf?_map (name : String) (bindings : List (String × Value)) :
    valueOf? name (bindings.map (Prod.map id (Value.relocate move))) =
      (valueOf? name bindings).map (Value.relocate move) := by
  induction bindings with
  | nil => rfl
  | cons first rest ih =>
      obtain ⟨known, old⟩ := first
      by_cases same : known = name <;> simp [valueOf?, same, ih]

theorem Scope.map_put (name : String) (value : Value) (bindings : List (String × Value)) :
    (put name value bindings).map (Prod.map id (Value.relocate move)) =
      put name (value.relocate move) (bindings.map (Prod.map id (Value.relocate move))) := by
  induction bindings with
  | nil => rfl
  | cons first rest ih =>
      obtain ⟨known, old⟩ := first
      by_cases same : known = name <;> simp [put, same, ih]

theorem Scope.find?_relocate (scope : Scope) (name : String) :
    (scope.relocate move).find? name = (scope.find? name).map (Value.relocate move) :=
  valueOf?_map move name scope.bindings

theorem Scope.bind_relocate (scope : Scope) (name : String) (value : Value) :
    (scope.bind name value).relocate move =
      (scope.relocate move).bind name (value.relocate move) := by
  rw [bind, bind, relocate, relocate, map_put]

namespace Store

theorem getElem?_relocate (store : Store) (scope : ScopeId) :
    (store.relocate move).scopes[scope]? = (store.scopes[scope]?).map (Scope.relocate move) :=
  Array.getElem?_map

theorem enclose_relocate (store : Store) (outer : Option ScopeId) :
    (store.relocate move).enclose outer =
      ((store.enclose outer).1, (store.enclose outer).2.relocate move) := by
  simp [enclose, relocate, Scope.relocate]

theorem bind_relocate (store : Store) (scope : ScopeId) (name : String) (value : Value) :
    (store.bind scope name value).relocate move =
      (store.relocate move).bind scope name (value.relocate move) := by
  have scopes_eq : ((store.bind scope name value).relocate move).scopes =
      ((store.relocate move).bind scope name (value.relocate move)).scopes := by
    refine Array.ext_getElem? fun place => ?_
    rw [getElem?_relocate, getElem?_bind, getElem?_bind, getElem?_relocate]
    split
    · rw [Option.map_map, Option.map_map]
      exact congrArg (Option.map · _)
        (funext fun found => Scope.bind_relocate move found name value)
    · rfl
  exact congrArg (Store.mk · store.made store.output) scopes_eq

theorem lookup_relocate (store : Store) (name : String) (scope : ScopeId) :
    (store.relocate move).lookup name scope =
      (store.lookup name scope).map (Value.relocate move) := by
  induction scope using Nat.strongRecOn with
  | ind scope ih =>
      rw [lookup, lookup.eq_def store, getElem?_relocate]
      cases store.scopes[scope]? with
      | none => rfl
      | some found =>
          dsimp only [Option.map_some]
          rw [Scope.find?_relocate, show (found.relocate move).outer = found.outer from rfl]
          cases found.find? name with
          | some value => rfl
          | none =>
              cases found.outer with
              | none => rfl
              | some outer =>
                  dsimp only [Option.map_none]
                  split
                  · rename_i earlier
                    exact ih outer earlier
                  · rfl

end Store
end

end MarmosetLang
