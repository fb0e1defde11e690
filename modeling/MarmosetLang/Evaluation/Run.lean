import MarmosetLang.Store

/-!
# Runs

A run turns a store into another one and finishes with an answer, unless it has to go deeper than
the bound set for it.  What a run has done to the store by then stays done.
-/

namespace MarmosetLang

/-- How a run ends. -/
inductive Outcome (α : Type) where
  /-- The run came to its end with an answer. -/
  | finished (answer : α)
  /-- The run had to go deeper than it may. -/
  | exhausted
deriving DecidableEq, Repr

/-- A computation over a store. -/
def Run (α : Type) : Type :=
  Store → Outcome α × Store

namespace Run

/-- Finish at once. -/
@[inline]
protected def pure {α : Type} (answer : α) : Run α :=
  fun store => (.finished answer, store)

/-- Do one run after another.  Exhaustion stops at once. -/
@[inline]
protected def bind {α β : Type} (run : Run α) (next : α → Run β) : Run β :=
  fun store =>
    match run store with
    | (.finished answer, later) => next answer later
    | (.exhausted, later) => (.exhausted, later)

@[inline]
instance : Monad Run where
  pure := Run.pure
  bind := Run.bind

theorem bind_of_finished {α β : Type} {run : Run α} {next : α → Run β} {store later : Store}
    {answer : α} (h : run store = (.finished answer, later)) :
    (run >>= next) store = next answer later := by
  change Run.bind run next store = next answer later
  rw [Run.bind, h]

theorem bind_of_exhausted {α β : Type} {run : Run α} {next : α → Run β} {store later : Store}
    (h : run store = (.exhausted, later)) : (run >>= next) store = (.exhausted, later) := by
  change Run.bind run next store = (.exhausted, later)
  rw [Run.bind, h]

/-- Stop because the bound on the depth is reached. -/
def exhausted {α : Type} : Run α :=
  fun store => (.exhausted, store)

/-- Set a serial number aside for a value about to be made. -/
@[inline]
def fresh : Run Nat :=
  fun store => (.finished store.fresh.1, store.fresh.2)

/-- Open a scope inside another one. -/
@[inline]
def enclose (outer : ScopeId) : Run ScopeId :=
  fun store => (.finished (store.enclose (some outer)).1, (store.enclose (some outer)).2)

/-- Bind a name in a scope. -/
@[inline]
def bindName (scope : ScopeId) (name : String) (value : Value) : Run Unit :=
  fun store => (.finished (), store.bind scope name value)

/-- Look a name up from a scope outwards. -/
@[inline]
def lookup (name : String) (scope : ScopeId) : Run (Option Value) :=
  fun store => (.finished (store.lookup name scope), store)

/-- Print lines one after another. -/
@[inline]
def printLines (lines : List String) : Run Unit :=
  fun store => (.finished (), lines.foldl Store.print store)

end Run

end MarmosetLang
