import MarmosetLang.Text.Quoted
import MarmosetLang.Value

/-!
# Stores

All scopes that a program has opened, in the order of their creation, together with the number of
values made and the text printed so far.  A scope may lie inside one that was opened before it.  A
name is looked up from the inside out, and bound only in the scope at hand.
-/

namespace MarmosetLang

/-- The names bound in one place. -/
structure Scope where
  /-- The scope around this one. -/
  outer : Option ScopeId
  /-- The names bound here, each once, with their values. -/
  bindings : List (String × Value)

namespace Scope

/-- The value of the first binding of a name. -/
def valueOf? (name : String) : List (String × Value) → Option Value
  | [] => none
  | (known, value) :: rest => if known = name then some value else valueOf? name rest

/-- Put a binding in place of the first one that has its name, or at the end. -/
def put (name : String) (value : Value) : List (String × Value) → List (String × Value)
  | [] => [(name, value)]
  | (known, old) :: rest =>
      if known = name then (name, value) :: rest else (known, old) :: put name value rest

/-- The value of a name bound in this very scope. -/
def find? (scope : Scope) (name : String) : Option Value :=
  valueOf? name scope.bindings

/-- Bind a name in this scope, anew if it is bound already. -/
def bind (scope : Scope) (name : String) (value : Value) : Scope :=
  { scope with bindings := put name value scope.bindings }

theorem valueOf?_put_self (name : String) (value : Value) (bindings : List (String × Value)) :
    valueOf? name (put name value bindings) = some value := by
  induction bindings with
  | nil => simp [put, valueOf?]
  | cons first rest ih => by_cases h : first.1 = name <;> simp [put, valueOf?, h, ih]

theorem valueOf?_put_of_ne {name other : String} (h : name ≠ other) (value : Value)
    (bindings : List (String × Value)) :
    valueOf? other (put name value bindings) = valueOf? other bindings := by
  induction bindings with
  | nil => simp [put, valueOf?, h]
  | cons first rest ih =>
      by_cases same : first.1 = name
      · simp [put, valueOf?, same, h]
      · simp [put, valueOf?, same, ih]

theorem mem_of_valueOf? {name : String} {value : Value} {bindings : List (String × Value)}
    (found : valueOf? name bindings = some value) : (name, value) ∈ bindings := by
  induction bindings with
  | nil => cases found
  | cons first rest ih =>
      rw [valueOf?] at found
      split at found
      · rename_i same
        cases found
        cases same
        exact List.mem_cons_self
      · exact List.mem_cons_of_mem first (ih found)

theorem find?_bind_self (scope : Scope) (name : String) (value : Value) :
    (scope.bind name value).find? name = some value :=
  valueOf?_put_self name value scope.bindings

theorem find?_bind_of_ne (scope : Scope) {name other : String} (h : name ≠ other) (value : Value) :
    (scope.bind name value).find? other = scope.find? other :=
  valueOf?_put_of_ne h value scope.bindings

/-- Describe a scope by its names in ascending order, and by whether another one lies around it. -/
def render (scope : Scope) : String :=
  let names := (scope.bindings.map Prod.fst).mergeSort fun left right => left ≤ right
  "<Environment [" ++ ", ".intercalate (names.map Quoted.encode) ++ "]" ++
    (if scope.outer.isSome then " +outer" else "") ++ ">"

end Scope

/-- The state of a run. -/
structure Store where
  /-- The scopes in the order of their creation. -/
  scopes : Array Scope
  /-- The number of values made so far, which is the serial number of the next one. -/
  made : Nat
  /-- The text printed so far. -/
  output : String

namespace Store

/-- The store before anything has happened. -/
def empty : Store :=
  ⟨#[], 0, ""⟩

/-- Open a scope inside another one, or on its own, and give its place. -/
def enclose (store : Store) (outer : Option ScopeId) : ScopeId × Store :=
  (store.scopes.size, { store with scopes := store.scopes.push ⟨outer, []⟩ })

/-- Bind a name in a scope.  The scopes around it stay as they are. -/
def bind (store : Store) (scope : ScopeId) (name : String) (value : Value) : Store :=
  { store with scopes := store.scopes.modify scope (·.bind name value) }

/-- The value of a name in the nearest scope that binds it, from the given one outwards.  Scopes lie
inside earlier ones, so the search moves towards the beginning and ends. -/
def lookup (store : Store) (name : String) (scope : ScopeId) : Option Value :=
  match store.scopes[scope]? with
  | none => none
  | some found =>
      match found.find? name with
      | some value => some value
      | none =>
          match found.outer with
          | none => none
          | some outer => if outer < scope then store.lookup name outer else none
termination_by scope

/-- Set a serial number aside for a value about to be made. -/
def fresh (store : Store) : Nat × Store :=
  (store.made, { store with made := store.made + 1 })

/-- Print a text and a line break after it. -/
def print (store : Store) (text : String) : Store :=
  { store with output := store.output ++ text ++ "\n" }

/-- Take out the text printed so far. -/
def drain (store : Store) : String × Store :=
  (store.output, { store with output := "" })

/-- Describe a scope of the store. -/
def describe (store : Store) (scope : ScopeId) : String :=
  (store.scopes.getD scope ⟨none, []⟩).render

theorem getElem?_enclose (store : Store) (outer : Option ScopeId) (scope : ScopeId) :
    (store.enclose outer).2.scopes[scope]? =
      if scope = store.scopes.size then some ⟨outer, []⟩ else store.scopes[scope]? :=
  Array.getElem?_push

theorem size_enclose (store : Store) (outer : Option ScopeId) :
    (store.enclose outer).2.scopes.size = store.scopes.size + 1 :=
  Array.size_push _

theorem getElem?_bind (store : Store) (scope place : ScopeId) (name : String) (value : Value) :
    (store.bind scope name value).scopes[place]? =
      if scope = place then (store.scopes[place]?).map (·.bind name value)
      else store.scopes[place]? :=
  Array.getElem?_modify

theorem size_bind (store : Store) (scope : ScopeId) (name : String) (value : Value) :
    (store.bind scope name value).scopes.size = store.scopes.size :=
  Array.size_modify

end Store

end MarmosetLang
