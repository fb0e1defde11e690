import MarmosetLang.Value.Tag

/-!
# Dictionaries

Entries in the order in which their slots were first filled.  A slot is what a key comes down to,
and two keys with the same slot are the same key: filling a slot again keeps its place and replaces
both the key and the value in it.
-/

namespace MarmosetLang

/-- What a key comes down to: its sort and a word that stands for its content. -/
structure Slot where
  /-- The sort of the key. -/
  tag : Tag
  /-- The word that stands for the content of the key. -/
  digest : UInt64
deriving DecidableEq, Repr

/-- A value under a key. -/
structure Entry (α : Type) where
  /-- The slot of the key. -/
  slot : Slot
  /-- The key, kept for display. -/
  key : α
  /-- The value. -/
  value : α

namespace Dictionary

/-- Fill a slot, in its old place if it has one and at the end otherwise. -/
def insert {α : Type} (entries : List (Entry α)) (entry : Entry α) : List (Entry α) :=
  match entries with
  | [] => [entry]
  | first :: rest =>
      if first.slot = entry.slot then entry :: rest else first :: insert rest entry

/-- The entry in a slot. -/
def find? {α : Type} (entries : List (Entry α)) (slot : Slot) : Option (Entry α) :=
  entries.find? (·.slot = slot)

theorem find?_insert_self {α : Type} (entries : List (Entry α)) (entry : Entry α) :
    find? (insert entries entry) entry.slot = some entry := by
  induction entries with
  | nil => simp [insert, find?]
  | cons first rest ih =>
      by_cases h : first.slot = entry.slot
      · simp [insert, find?, h]
      · simp only [insert, h, if_false, find?, List.find?_cons, decide_false]
        exact ih

theorem find?_insert_of_ne {α : Type} (entries : List (Entry α)) (entry : Entry α) {slot : Slot}
    (h : entry.slot ≠ slot) : find? (insert entries entry) slot = find? entries slot := by
  induction entries with
  | nil => simp [insert, find?, h]
  | cons first rest ih =>
      by_cases same : first.slot = entry.slot
      · simp [insert, find?, same, h]
      · simp only [insert, same, if_false, find?, List.find?_cons] at ih ⊢
        rw [ih]

end Dictionary

end MarmosetLang
