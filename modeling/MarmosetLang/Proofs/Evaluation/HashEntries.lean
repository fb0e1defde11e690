import MarmosetLang.Proofs.Evaluation.HashLiteral
import MarmosetLang.Proofs.Evaluation.Preservation
import MarmosetLang.Proofs.Value.Alike

/-!
# The entries of hashes

A hash literal comes to one entry for each slot of its keys.  The entries stand in the order in
which the slots were filled for the first time, and each has the key and the value of the last pair
that went into its slot.  In every hash that a program can get hold of all keys are in their own
slots, and no two of them in the same one.
-/

namespace MarmosetLang

namespace Dictionary

theorem map_slot_insert {α : Type} (entries : List (Entry α)) (entry : Entry α) :
    (insert entries entry).map Entry.slot =
      if entry.slot ∈ entries.map Entry.slot then entries.map Entry.slot
      else entries.map Entry.slot ++ [entry.slot] := by
  induction entries with
  | nil => rfl
  | cons first rest ih =>
      rw [insert]
      by_cases same : first.slot = entry.slot
      · simp [same]
      · have different : entry.slot ≠ first.slot := Ne.symm same
        rw [if_neg same, List.map_cons, ih, List.map_cons]
        by_cases old : entry.slot ∈ rest.map Entry.slot
        · rw [if_pos old, if_pos (List.mem_cons_of_mem _ old)]
        · rw [if_neg old, if_neg (by rw [List.mem_cons, not_or]; exact ⟨different, old⟩),
            List.cons_append]

/-- An entry is found in its slot if no other one has that slot. -/
theorem find?_of_mem {α : Type} {entries : List (Entry α)} {entry : Entry α}
    (nodup : (entries.map Entry.slot).Nodup) (member : entry ∈ entries) :
    find? entries entry.slot = some entry := by
  induction entries with
  | nil => cases member
  | cons first rest ih =>
      rw [List.map_cons, List.nodup_cons] at nodup
      rw [find?, List.find?_cons]
      rcases List.mem_cons.mp member with rfl | later
      · simp
      · have different : first.slot ≠ entry.slot := fun same =>
          nodup.1 (same ▸ List.mem_map_of_mem later)
        rw [decide_eq_false different]
        exact ih nodup.2 later

/-- What is new at the end of a list is new among its different elements. -/
theorem eraseDups_append_singleton (slots : List Slot) (slot : Slot) :
    (slots ++ [slot]).eraseDups =
      if slot ∈ slots then slots.eraseDups else slots.eraseDups ++ [slot] := by
  rw [List.eraseDups_append]
  split
  · rename_i old
    simp [List.removeAll, old]
  · rename_i new
    simp [List.removeAll, new, List.eraseDups_cons]

/-- Slots are filled in the order in which they occur for the first time. -/
theorem map_slot_foldl_enter (found : List (Value × Value)) :
    (found.foldl enter []).map Entry.slot =
      (found.filterMap fun pair => pair.1.slot?).eraseDups := by
  -- From the end, because the last pair is the last one to be entered.
  induction found using List.reverseRecOn with
  | nil => rfl
  | append_singleton earlier pair ih =>
      rw [List.foldl_append, List.foldl_cons, List.foldl_nil, List.filterMap_append, enter]
      cases slot_eq : pair.1.slot? with
      | none => simp [slot_eq, ih]
      | some slot =>
          have filled_eq : [pair].filterMap (fun pair => pair.1.slot?) = [slot] := by
            simp [slot_eq]
          change (insert _ _).map Entry.slot = _
          rw [map_slot_insert, ih, filled_eq, eraseDups_append_singleton]
          simp only [List.mem_eraseDups]

/-- Keys are in their own slots, each in a different one. -/
structure IsKeyed (entries : List (Entry Value)) : Prop where
  /-- No two entries have the same slot. -/
  nodup : (entries.map Entry.slot).Nodup
  /-- The slot of an entry is that of its key. -/
  own : ∀ entry ∈ entries, entry.key.slot? = some entry.slot

theorem isKeyed_nil : IsKeyed [] :=
  ⟨List.nodup_nil, List.forall_mem_nil _⟩

theorem IsKeyed.insert {entries : List (Entry Value)} (keyed : IsKeyed entries) {slot : Slot}
    {key : Value} (slot_eq : key.slot? = some slot) (value : Value) :
    IsKeyed (insert entries ⟨slot, key, value⟩) where
  nodup := by
    rw [map_slot_insert]
    split
    · exact keyed.nodup
    · rename_i new
      rw [List.nodup_append]
      refine ⟨keyed.nodup, List.nodup_cons.mpr ⟨List.not_mem_nil, List.nodup_nil⟩, ?_⟩
      rintro old member _ filled rfl
      rw [List.mem_singleton] at filled
      exact new (filled ▸ member)
  own := forall_mem_insert keyed.own slot_eq

theorem isKeyed_foldl_enter (found : List (Value × Value)) : IsKeyed (found.foldl enter []) := by
  induction found using List.reverseRecOn with
  | nil => exact isKeyed_nil
  | append_singleton earlier pair ih =>
      rw [List.foldl_append, List.foldl_cons, List.foldl_nil, enter]
      split
      · rename_i slot slot_eq
        exact ih.insert slot_eq pair.2
      · exact ih

end Dictionary

namespace Value

/-- If a value is a hash, its keys are in their own slots, each in a different one. -/
def IsKeyed : Value → Prop
  | hash _ entries => Dictionary.IsKeyed entries
  | _ => True

end Value

/-- The entries are the last pairs that went into their slots. -/
theorem Dictionary.lastPair?_of_mem {found : List (Value × Value)} {entry : Entry Value}
    (member : entry ∈ found.foldl enter []) :
    Value.lastPair? found entry.slot = some (entry.key, entry.value) := by
  have found_eq := find?_of_mem (isKeyed_foldl_enter found).nodup member
  rw [find?_foldl_enter] at found_eq
  obtain ⟨pair, pair_eq, entry_eq⟩ := Option.map_eq_some_iff.mp found_eq
  rw [← entry_eq]
  exact pair_eq

namespace Evaluation

open Value

/-! ## Every hash in a run -/

theorem lawful_isKeyed : Lawful (fun _ => True) (fun _ => True) Value.IsKeyed where
  wrapped _ _ := trivial
  boolean _ := trivial
  null := trivial
  string _ _ := trivial
  array _ _ := trivial
  builtin _ := trivial
  returned _ _ := trivial
  error _ _ := trivial
  integer _ _ := trivial
  hash_nil _ := Dictionary.isKeyed_nil
  hash_insert keyed slot_eq value _ := Dictionary.IsKeyed.insert (keyed 0) slot_eq value
  function _ _ _ _ := trivial
  called {_ _ body _} _ := ⟨Block.every_of_forall (fun _ => trivial) body, trivial⟩

theorem preserves_standard (region : ScopeId → Prop) :
    Operations.standard.Preserves (fun _ => True) region
      fun value => value.IsKeyed ∧ value.HomeIn region :=
  (lawful_isKeyed.confine region).preserves_standard fun _ _ => ⟨trivial, trivial⟩

/-- A hash literal whose keys can be keys and whose values are plain comes to one entry for each
slot of its keys, in the order in which the slots occur for the first time, with the key and the
value of the last pair that has the slot.  It is displayed so, and every key selects the value of
the last pair that has its slot.  In every hash that a program comes to, binds or finds on the way
the keys are in their own slots, each in a different one, if they were so in what it started from;
and it may start from nothing. -/
theorem hash_entries :
    (∀ (depth : Nat) (token : Token) (scope : ScopeId) (pairs : List (Expr × Expr))
      (found : List (Value × Value)) (store later : Store),
      PairsFinish (evaluate depth) scope pairs store found later →
      (∀ pair ∈ found, ∃ slot, pair.1.slot? = some slot) →
      (∀ pair ∈ found, pair.2.isSignal = false) →
      ∃ serial entries last,
        evaluate (depth + 1) (.hash token pairs) scope store =
          (.finished (.hash serial entries), last) ∧
        entries.map Entry.slot = (found.filterMap fun pair => pair.1.slot?).eraseDups ∧
        (entries.map Entry.slot).Nodup ∧
        (∀ entry ∈ entries, entry.key.slot? = some entry.slot ∧
          lastPair? found entry.slot = some (entry.key, entry.value)) ∧
        (hash serial entries).render =
          "\x7b" ++ ", ".intercalate
            (entries.map fun entry => entry.key.render ++ ": " ++ entry.value.render) ++ "\x7d" ∧
        ∀ (made : Nat) (key : Value) (slot : Slot), key.slot? = some slot →
          Operation.select made (.hash serial entries) key =
            match lastPair? found slot with
            | some pair => pair.2
            | none => .null) ∧
    (Store.empty.enclose none).2.HoldsFrom Value.IsKeyed (Store.empty.enclose none).1 ∧
    ∀ (text : Program) (store : Store) (home : ScopeId) (depth : Nat),
      store.HoldsFrom Value.IsKeyed home →
        Preserved Value.IsKeyed store home (program (evaluate depth) home text store) ∧
          ∀ inspect : Value → Run Value,
            (∀ value, value.Every Value.IsKeyed → inspect value = pure value) →
              program (inspected inspect .standard depth) home text store =
                program (evaluate depth) home text store := by
  refine ⟨?_, ?_, ?_⟩
  · intro depth token scope pairs found store later finish keys plain
    refine ⟨_, _, _, finish.evaluate_hash keys plain token, Dictionary.map_slot_foldl_enter found,
      (Dictionary.isKeyed_foldl_enter found).nodup, fun entry member => ?_, ?_,
      fun made key slot slot_eq => Operation.select_eq_lastPair? found slot_eq made _⟩
    · exact ⟨(Dictionary.isKeyed_foldl_enter found).own entry member,
        Dictionary.lastPair?_of_mem member⟩
    · rw [render, renderEntries_eq_map]
  · intro scope opened name value _ opened_eq bound
    obtain ⟨within, -⟩ := Array.getElem?_eq_some_iff.mp opened_eq
    obtain rfl : scope = 0 := Nat.lt_one_iff.mp within
    cases opened_eq
    cases bound
  · intro text store home depth keyed
    exact preserved_program lawful_isKeyed preserves_standard keyed
      (Program.every_of_forall (fun _ => trivial) text) depth

/-- The literal `{true: 1, false: 2, true: 3}` in a fresh store, and a program made of it. -/
theorem hash_entries_sample :
    let pairs : List (Expr × Expr) :=
      [(.boolean ⟨.trueWord, "true", 1⟩, .integer ⟨.integer, "1", 7⟩ 1),
        (.boolean ⟨.falseWord, "false", 10⟩, .integer ⟨.integer, "2", 17⟩ 2),
        (.boolean ⟨.trueWord, "true", 20⟩, .integer ⟨.integer, "3", 26⟩ 3)]
    let found : List (Value × Value) :=
      [(.boolean true, .integer 0 1), (.boolean false, .integer 1 2),
        (.boolean true, .integer 2 3)]
    let literal : Expr := .hash ⟨.openBrace, "\x7b", 0⟩ pairs
    let store : Store := (Store.empty.enclose none).2
    PairsFinish (evaluate 1) 0 pairs store found { store with made := 3 } ∧
      (∀ pair ∈ found, ∃ slot, pair.1.slot? = some slot) ∧
      (∀ pair ∈ found, pair.2.isSignal = false) ∧
      (∃ serial entries last,
        evaluate 2 literal 0 store = (.finished (.hash serial entries), last) ∧
        entries.map Entry.slot = [⟨.boolean, 1⟩, ⟨.boolean, 0⟩] ∧
        ∀ entry ∈ entries, lastPair? found entry.slot = some (entry.key, entry.value)) ∧
      Preserved Value.IsKeyed store 0
        (program (evaluate 2) 0 ⟨[.expression ⟨.openBrace, "\x7b", 0⟩ literal]⟩ store) := by
  intro pairs found literal store
  have runs (expr : Expr) (store : Store) :
      evaluate 1 expr 0 store = expression .standard (evaluate 0) (evaluate 0) expr 0 store :=
    congrFun (evaluate_succ 0 expr 0) store
  have finish : PairsFinish (evaluate 1) 0 pairs store found { store with made := 3 } :=
    .cons (runs _ _) (runs _ _) (.cons (runs _ _) (runs _ _) (.cons (runs _ _) (runs _ _) .nil))
  have keys : ∀ pair ∈ found, ∃ slot, pair.1.slot? = some slot := by
    simp [found, Value.slot?]
  have plain : ∀ pair ∈ found, pair.2.isSignal = false := by
    simp [found, Value.isSignal]
  obtain ⟨serial, entries, last, run_eq, slots_eq, -, each, -⟩ :=
    hash_entries.1 1 ⟨.openBrace, "\x7b", 0⟩ 0 pairs found store _ finish keys plain
  have preserved := hash_entries.2.2 ⟨[.expression ⟨.openBrace, "\x7b", 0⟩ literal]⟩ store 0 2
    hash_entries.2.1
  exact ⟨finish, keys, plain,
    ⟨serial, entries, last, run_eq, slots_eq.trans (by decide +kernel),
      fun entry member => (each entry member).2⟩, preserved.1⟩

end Evaluation
end MarmosetLang
