import MarmosetLang.Proofs.Evaluation.Propagation
import MarmosetLang.Proofs.Value.Keys
import Mathlib.Data.List.Induction

/-!
# Hash literals

The pairs of a hash literal are entered one after another, and a pair takes the slot of an earlier
one if their keys have the same slot.  What a key selects afterwards is the value in the last pair
that has gone into its slot.
-/

namespace MarmosetLang

/-- Enter a pair of values into a hash.  A pair without a key for a hash is left out. -/
def Dictionary.enter (entries : List (Entry Value)) (pair : Value × Value) : List (Entry Value) :=
  match pair.1.slot? with
  | some slot => Dictionary.insert entries ⟨slot, pair.1, pair.2⟩
  | none => entries

theorem Dictionary.find?_enter (entries : List (Entry Value)) (pair : Value × Value) (slot : Slot) :
    find? (enter entries pair) slot =
      if pair.1.slot? = some slot then some ⟨slot, pair.1, pair.2⟩ else find? entries slot := by
  unfold enter
  split
  · rename_i filled filled_eq
    rw [filled_eq]
    split
    · rename_i same
      cases same
      exact find?_insert_self entries ⟨slot, pair.1, pair.2⟩
    · rename_i different
      exact find?_insert_of_ne entries ⟨filled, pair.1, pair.2⟩ fun same => different (same ▸ rfl)
  · rename_i no_slot
    rw [no_slot, if_neg nofun]

/-- The last of some pairs whose key has a given slot. -/
def Value.lastPair? (found : List (Value × Value)) (slot : Slot) : Option (Value × Value) :=
  (found.filter fun pair => pair.1.slot? = some slot).getLast?

/-- Of the pairs that go into a slot the last one stays there. -/
theorem Dictionary.find?_foldl_enter (found : List (Value × Value)) (slot : Slot) :
    find? (found.foldl enter []) slot =
      (Value.lastPair? found slot).map fun pair => ⟨slot, pair.1, pair.2⟩ := by
  -- From the end, because the last pair decides unless it goes into another slot.
  induction found using List.reverseRecOn with
  | nil => rfl
  | append_singleton earlier pair ih =>
      rw [List.foldl_append, List.foldl_cons, List.foldl_nil, find?_enter, ih, Value.lastPair?,
        Value.lastPair?, List.filter_append]
      split
      · rename_i same
        rw [List.filter_cons_of_pos (by simpa using same), List.getLast?_append]
        rfl
      · rename_i different
        rw [List.filter_cons_of_neg (by simpa using different), List.filter_nil, List.append_nil]

/-- A key selects the value in the last pair that has its slot, and null if there is none. -/
theorem Operation.select_eq_lastPair? (found : List (Value × Value)) {key : Value} {slot : Slot}
    (slot_eq : key.slot? = some slot) (serial container_serial : Nat) :
    select serial (.hash container_serial (found.foldl Dictionary.enter [])) key =
      match Value.lastPair? found slot with
      | some pair => pair.2
      | none => .null := by
  have select_eq : select serial (.hash container_serial (found.foldl Dictionary.enter [])) key =
      valueAt (found.foldl Dictionary.enter []) slot := by
    simp only [select, slot_eq]
  rw [select_eq, valueAt, Dictionary.find?_foldl_enter]
  cases Value.lastPair? found slot <;> rfl

/-- The value in the last pair that has the same key as a given one, and null if there is none. -/
def Value.lastUnder (found : List (Value × Value)) (key : Value) : Value :=
  match (found.filter fun pair => pair.1.sameKey key).getLast? with
  | some pair => pair.2
  | none => .null

theorem Operation.select_foldl_enter {found : List (Value × Value)} {key : Value}
    (serial container_serial : Nat) (keys : ∀ pair ∈ found, pair.1.IsKey) (is_key : key.IsKey) :
    select serial (.hash container_serial (found.foldl Dictionary.enter [])) key =
      Value.lastUnder found key := by
  obtain ⟨slot, slot_eq⟩ := is_key.exists_slot
  have filter_eq : (found.filter fun pair => pair.1.slot? = some slot) =
      found.filter fun pair => pair.1.sameKey key := by
    refine List.filter_congr fun pair member => ?_
    rw [Bool.eq_iff_iff, decide_eq_true_iff, ← slot_eq]
    exact Value.slot?_eq_iff_sameKey (keys pair member) is_key
  rw [select_eq_lastPair? found slot_eq, Value.lastPair?, filter_eq, Value.lastUnder]

namespace Evaluation

/-- Pairs of expressions are evaluated one after another, each key before its value, and come to
pairs of values. -/
inductive PairsFinish (nested : Evaluator) (scope : ScopeId) :
    List (Expr × Expr) → Store → List (Value × Value) → Store → Prop where
  | nil {store : Store} : PairsFinish nested scope [] store [] store
  | cons {key content : Expr} {rest : List (Expr × Expr)} {store between after later : Store}
      {key_value value : Value} {found : List (Value × Value)}
      (key_run : nested key scope store = (.finished key_value, between))
      (value_run : nested content scope between = (.finished value, after))
      (others : PairsFinish nested scope rest after found later) :
      PairsFinish nested scope ((key, content) :: rest) store ((key_value, value) :: found) later

variable {nested : Evaluator} {scope : ScopeId} {pairs : List (Expr × Expr)} {store later : Store}
  {found : List (Value × Value)}

/-- Where all keys can be keys and no value is a signal, all pairs are entered. -/
theorem PairsFinish.collectEntries_eq {next : List (Entry Value) → Run Value}
    (finish : PairsFinish nested scope pairs store found later)
    (keys : ∀ pair ∈ found, ∃ slot, pair.1.slot? = some slot)
    (plain : ∀ pair ∈ found, pair.2.isSignal = false) (entries : List (Entry Value)) :
    collectEntries nested scope next entries pairs store =
      next (found.foldl Dictionary.enter entries) later := by
  induction finish generalizing entries with
  | nil => rfl
  | @cons key content rest store between after later key_value value found key_run value_run others
      ih =>
      obtain ⟨⟨slot, slot_eq⟩, other_keys⟩ := List.forall_mem_cons.mp keys
      obtain ⟨value_plain, others_plain⟩ := List.forall_mem_cons.mp plain
      have key_plain : key_value.isSignal = false := by
        cases key_value with
        | returned | error => exact nomatch slot_eq
        | _ => rfl
      have enter_eq : Dictionary.enter entries (key_value, value) =
          Dictionary.insert entries ⟨slot, key_value, value⟩ := by
        simp only [Dictionary.enter, slot_eq]
      rw [collectEntries, ifPlain_of_no_signal _ key_run key_plain]
      simp only [slot_eq]
      rw [ifPlain_of_no_signal _ value_run value_plain, ih other_keys others_plain,
        List.foldl_cons, enter_eq]

theorem PairsFinish.evaluate_hash {depth : Nat}
    (finish : PairsFinish (evaluate depth) scope pairs store found later)
    (keys : ∀ pair ∈ found, ∃ slot, pair.1.slot? = some slot)
    (plain : ∀ pair ∈ found, pair.2.isSignal = false) (token : Token) :
    evaluate (depth + 1) (.hash token pairs) scope store =
      (.finished (.hash later.made (found.foldl Dictionary.enter [])), later.fresh.2) := by
  rw [evaluate_succ, expression, finish.collectEntries_eq keys plain]
  rfl

/-- A hash literal whose keys are numbers of 64 bits, truth values and texts comes to a hash from
which every key selects the value in the last pair that has the same key.  Only keys that are the
same share a slot. -/
theorem select_hash_literal {depth : Nat} (token : Token)
    (finish : PairsFinish (evaluate depth) scope pairs store found later)
    (keys : ∀ pair ∈ found, pair.1.IsKey) (plain : ∀ pair ∈ found, pair.2.isSignal = false) :
    ∃ container last,
      evaluate (depth + 1) (.hash token pairs) scope store = (.finished container, last) ∧
      (∀ (serial : Nat) (key : Value), key.IsKey →
        Operation.select serial container key = Value.lastUnder found key) ∧
      ∀ key other : Value, key.IsKey → other.IsKey →
        (key.slot? = other.slot? ↔ key.sameKey other = true) :=
  ⟨_, _, finish.evaluate_hash (fun pair member => (keys pair member).exists_slot) plain token,
    fun serial _ is_key => Operation.select_foldl_enter serial _ keys is_key,
    fun _ _ is_key other_is_key => Value.slot?_eq_iff_sameKey is_key other_is_key⟩

/-- The literal `{1: true, true: 2, 1: false}` in an empty store. -/
theorem select_hash_literal_overwriting :
    let pairs : List (Expr × Expr) :=
      [(.integer ⟨.integer, "1", 1⟩ 1, .boolean ⟨.trueWord, "true", 4⟩),
        (.boolean ⟨.trueWord, "true", 10⟩, .integer ⟨.integer, "2", 16⟩ 2),
        (.integer ⟨.integer, "1", 19⟩ 1, .boolean ⟨.falseWord, "false", 22⟩)]
    let found : List (Value × Value) :=
      [(.integer 0 1, .boolean true), (.boolean true, .integer 1 2),
        (.integer 2 1, .boolean false)]
    PairsFinish (evaluate 1) 0 pairs Store.empty found ⟨#[], 3, ""⟩ ∧
      (∀ pair ∈ found, pair.1.IsKey) ∧ (∀ pair ∈ found, pair.2.isSignal = false) ∧
      ∃ container last,
        evaluate 2 (.hash ⟨.openBrace, "\x7b", 0⟩ pairs) 0 Store.empty =
          (.finished container, last) ∧
        (∀ (serial : Nat) (key : Value), key.IsKey →
          Operation.select serial container key = Value.lastUnder found key) ∧
        ∀ key other : Value, key.IsKey → other.IsKey →
          (key.slot? = other.slot? ↔ key.sameKey other = true) := by
  intro pairs found
  have runs (expr : Expr) (store : Store) :
      evaluate 1 expr 0 store = expression .standard (evaluate 0) (evaluate 0) expr 0 store :=
    congrFun (evaluate_succ 0 expr 0) store
  have finish : PairsFinish (evaluate 1) 0 pairs Store.empty found ⟨#[], 3, ""⟩ :=
    .cons (runs _ _) (runs _ _) (.cons (runs _ _) (runs _ _) (.cons (runs _ _) (runs _ _) .nil))
  have keys : ∀ pair ∈ found, pair.1.IsKey := by
    simp [found, Value.IsKey, Word.Fits]
  have plain : ∀ pair ∈ found, pair.2.isSignal = false := by
    simp [found, Value.isSignal]
  exact ⟨finish, keys, plain, select_hash_literal ⟨.openBrace, "\x7b", 0⟩ finish keys plain⟩

/-- Two texts with the same fingerprint.  In a hash with both, the first one selects the value of
the second one. -/
theorem select_of_equal_fingerprints :
    let first := "8yn0iYCKYHlIj4-BwPqk"
    let second := "GReLUrM4wMqfg9yzV3KQ"
    first ≠ second ∧ ∃ container last,
      evaluate 2 (.hash ⟨.openBrace, "\x7b", 0⟩
          [(.string ⟨.string, first, 1⟩, .integer ⟨.integer, "1", 25⟩ 1),
            (.string ⟨.string, second, 28⟩, .integer ⟨.integer, "2", 52⟩ 2)]) 0 Store.empty =
        (.finished container, last) ∧
      ∀ serial, Operation.select serial container (.string 0 first) = .integer 3 2 := by
  intro first second
  let found : List (Value × Value) :=
    [(.string 0 first, .integer 1 1), (.string 2 second, .integer 3 2)]
  have runs (expr : Expr) (store : Store) :
      evaluate 1 expr 0 store = expression .standard (evaluate 0) (evaluate 0) expr 0 store :=
    congrFun (evaluate_succ 0 expr 0) store
  have finish : PairsFinish (evaluate 1) 0
      [(.string ⟨.string, first, 1⟩, .integer ⟨.integer, "1", 25⟩ 1),
        (.string ⟨.string, second, 28⟩, .integer ⟨.integer, "2", 52⟩ 2)]
      Store.empty found ⟨#[], 4, ""⟩ :=
    .cons (runs _ _) (runs _ _) (.cons (runs _ _) (runs _ _) .nil)
  have keys : ∀ pair ∈ found, pair.1.IsKey := by
    simp [found, Value.IsKey]
  have plain : ∀ pair ∈ found, pair.2.isSignal = false := by
    simp [found, Value.isSignal]
  have collide : Fingerprint.ofText second = Fingerprint.ofText first := by decide +kernel
  refine ⟨by decide, _, _, finish.evaluate_hash (fun pair member => (keys pair member).exists_slot)
    plain _, fun serial => ?_⟩
  have is_key : Value.IsKey (.string 0 first) := trivial
  rw [Operation.select_foldl_enter _ _ keys is_key]
  simp [found, Value.lastUnder, Value.sameKey, collide]

end Evaluation

end MarmosetLang
