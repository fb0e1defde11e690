import MarmosetLang.Operation
import MarmosetLang.Proofs.Value.Keys
import Mathlib.Data.String.Basic

/-!
# Comparing values

Equality looks at the content of numbers and texts and at the identity of everything else, and
values of different sorts are never equal.  What it looks at is gathered in the essence of a value:
equality asks whether two values have the same one, which makes it an equivalence, and the key that
a value comes down to depends on its essence alone.  Numbers are ordered by size and texts
lexicographically, and each order agrees with equality.
-/

namespace MarmosetLang

namespace Value

/-- What equality looks at in a value. -/
inductive Essence where
  /-- The content of a number. -/
  | number (number : Int)
  /-- The content of a text. -/
  | text (text : String)
  /-- A truth value. -/
  | truth (truth : Bool)
  /-- The absence of a value. -/
  | null
  /-- A builtin function. -/
  | builtin (which : Builtin)
  /-- The identity of a value that is made anew. -/
  | identity (tag : Tag) (serial : Nat)
deriving DecidableEq

/-- What equality looks at in a value. -/
def essence : Value → Essence
  | integer _ number => .number number
  | boolean truth => .truth truth
  | null => .null
  | string _ text => .text text
  | array serial _ => .identity .array serial
  | hash serial _ => .identity .hash serial
  | function serial _ _ _ => .identity .function serial
  | builtin which => .builtin which
  | returned serial _ => .identity .returned serial
  | error serial _ => .identity .error serial

/-- Keys are made of what equality looks at. -/
theorem slot?_eq_of_essence_eq {left right : Value} (same : left.essence = right.essence) :
    left.slot? = right.slot? := by
  cases left <;> cases right <;> simp_all [essence, slot?]

/-- Two numbers or two texts. -/
inductive AreOrdered : Value → Value → Prop where
  | numbers {serial other : Nat} {number second : Int} :
      AreOrdered (.integer serial number) (.integer other second)
  | texts {serial other : Nat} {text second : String} :
      AreOrdered (.string serial text) (.string other second)

end Value

namespace Operation

open Value

/-- An operator between two values affirms what it asks. -/
def Affirms (operator : String) (left right : Value) : Prop :=
  ∀ serial, applyInfix serial operator left right = .boolean true

/-! ## Equality -/

theorem applyInfix_equal (serial : Nat) (left right : Value) :
    applyInfix serial "==" left right = .boolean (left.essence = right.essence) := by
  cases left <;> cases right <;>
    simp [applyInfix, applyIntegers, applyStrings, applyOthers, essence, same, tag, serial?]

theorem applyInfix_notEqual (serial : Nat) (left right : Value) :
    applyInfix serial "!=" left right = .boolean (!(left.essence = right.essence)) := by
  cases left <;> cases right <;>
    simp [applyInfix, applyIntegers, applyStrings, applyOthers, essence, same, tag, serial?]

theorem affirms_equal_iff (left right : Value) :
    Affirms "==" left right ↔ left.essence = right.essence := by
  simp [Affirms, applyInfix_equal]

/-- Numbers of 64 bits and truth values are equal if they are the same key. -/
theorem affirms_equal_of_slot?_eq {left right : Value} (left_key : left.IsKey)
    (right_key : right.IsKey) (no_text : left.tag ≠ .string) (same : left.slot? = right.slot?) :
    Affirms "==" left right := by
  rw [affirms_equal_iff]
  rw [slot?_eq_iff_sameKey left_key right_key] at same
  cases left with
  | integer serial number =>
      cases right with
      | integer other second => exact congrArg Essence.number (of_decide_eq_true same)
      | _ => cases same
  | boolean truth =>
      cases right with
      | boolean second => exact congrArg Essence.truth (of_decide_eq_true same)
      | _ => cases same
  | string => exact absurd rfl no_text
  | _ => exact left_key.elim

/-! ## Order -/

theorem affirms_less_numbers (serial other : Nat) (number second : Int) :
    Affirms "<" (.integer serial number) (.integer other second) ↔ number < second := by
  simp [Affirms, applyInfix, applyIntegers]

theorem affirms_less_texts (serial other : Nat) (text second : String) :
    Affirms "<" (.string serial text) (.string other second) ↔ text < second := by
  simp [Affirms, applyInfix, applyStrings]

theorem exactly_one_of_linearOrder {α : Type} [LinearOrder α] (left right : α) :
    (left < right ∧ left ≠ right ∧ ¬right < left) ∨
      (¬left < right ∧ left = right ∧ ¬right < left) ∨
        (¬left < right ∧ left ≠ right ∧ right < left) := by
  rcases lt_trichotomy left right with below | rfl | above
  · exact .inl ⟨below, below.ne, below.asymm⟩
  · exact .inr (.inl ⟨lt_irrefl left, rfl, lt_irrefl left⟩)
  · exact .inr (.inr ⟨above.asymm, above.ne', above⟩)

theorem exactly_one_of_areOrdered {left right : Value} (ordered : left.AreOrdered right) :
    (Affirms "<" left right ∧ ¬Affirms "==" left right ∧ ¬Affirms "<" right left) ∨
      (¬Affirms "<" left right ∧ Affirms "==" left right ∧ ¬Affirms "<" right left) ∨
        (¬Affirms "<" left right ∧ ¬Affirms "==" left right ∧ Affirms "<" right left) := by
  rw [affirms_equal_iff]
  cases ordered with
  | @numbers _ _ number second =>
      rw [affirms_less_numbers, affirms_less_numbers, essence, essence, Essence.number.injEq]
      exact exactly_one_of_linearOrder number second
  | @texts _ _ text second =>
      rw [affirms_less_texts, affirms_less_texts, essence, essence, Essence.text.injEq]
      exact exactly_one_of_linearOrder text second

theorem affirms_less_trans {first second third : Value} (ordered : first.AreOrdered second)
    (next_ordered : second.AreOrdered third) (less : Affirms "<" first second)
    (next_less : Affirms "<" second third) : Affirms "<" first third := by
  cases ordered with
  | numbers =>
      cases next_ordered with
      | numbers =>
          rw [affirms_less_numbers] at less next_less ⊢
          exact Int.lt_trans less next_less
  | texts =>
      cases next_ordered with
      | texts =>
          rw [affirms_less_texts] at less next_less ⊢
          exact String.lt_trans less next_less

/-- Equality of any two values is true or false, and inequality is the opposite.  It is reflexive,
symmetric and transitive.  Values that are equal are the same key, and numbers of 64 bits and truth
values are equal if they are.  Of two numbers or two texts either one is less or they are equal, and
only one of these; being less is transitive, and being greater is the same the other way round. -/
theorem comparisons_lawful :
    (∀ left right, ∃ truth, ∀ serial,
      applyInfix serial "==" left right = .boolean truth ∧
      applyInfix serial "!=" left right = .boolean (!truth)) ∧
    (∀ value, Affirms "==" value value) ∧
    (∀ left right, Affirms "==" left right → Affirms "==" right left) ∧
    (∀ first second third,
      Affirms "==" first second → Affirms "==" second third → Affirms "==" first third) ∧
    (∀ left right, Affirms "==" left right → left.slot? = right.slot?) ∧
    (∀ left right : Value, left.IsKey → right.IsKey → left.tag ≠ .string →
      left.slot? = right.slot? → Affirms "==" left right) ∧
    (∀ left right, left.AreOrdered right →
      (∃ truth, ∀ serial, applyInfix serial "<" left right = .boolean truth ∧
        applyInfix serial ">" right left = .boolean truth) ∧
      ((Affirms "<" left right ∧ ¬Affirms "==" left right ∧ ¬Affirms "<" right left) ∨
        (¬Affirms "<" left right ∧ Affirms "==" left right ∧ ¬Affirms "<" right left) ∨
          (¬Affirms "<" left right ∧ ¬Affirms "==" left right ∧ Affirms "<" right left))) ∧
    ∀ first second third, first.AreOrdered second → second.AreOrdered third →
      Affirms "<" first second → Affirms "<" second third → Affirms "<" first third := by
  refine ⟨fun left right => ⟨_, fun serial => ⟨applyInfix_equal serial left right,
    applyInfix_notEqual serial left right⟩⟩, ?_, ?_, ?_, ?_, ?_, ?_, ?_⟩
  · intro value
    exact (affirms_equal_iff value value).mpr rfl
  · intro left right equal
    rw [affirms_equal_iff] at equal ⊢
    exact equal.symm
  · intro first second third equal next_equal
    rw [affirms_equal_iff] at equal next_equal ⊢
    exact equal.trans next_equal
  · intro left right equal
    exact slot?_eq_of_essence_eq ((affirms_equal_iff left right).mp equal)
  · intro left right left_key right_key no_text same
    exact affirms_equal_of_slot?_eq left_key right_key no_text same
  · intro left right ordered
    refine ⟨?_, exactly_one_of_areOrdered ordered⟩
    cases ordered with
    | numbers | texts => exact ⟨_, fun serial => ⟨rfl, rfl⟩⟩
  · intro first second third ordered next_ordered
    exact affirms_less_trans ordered next_ordered

/-- The least word made twice, null, and the texts `a`, `ab` and `b`. -/
theorem comparisons_lawful_sample :
    let least : Value := .integer 0 (-0x8000000000000000)
    let again : Value := .integer 1 (-0x8000000000000000)
    Affirms "==" least again ∧ Affirms "==" again least ∧ Affirms "==" least least ∧
      least.IsKey ∧ again.IsKey ∧ least.slot? = again.slot? ∧ Affirms "==" .null .null ∧
      (Value.string 2 "a").AreOrdered (.string 3 "ab") ∧
      (Value.string 3 "ab").AreOrdered (.string 4 "b") ∧
      Affirms "<" (.string 2 "a") (.string 3 "ab") ∧ Affirms "<" (.string 3 "ab") (.string 4 "b") ∧
      Affirms "<" (.string 2 "a") (.string 4 "b") ∧
      ∃ truth, ∀ serial, applyInfix serial "<" (.string 2 "a") (.string 3 "ab") = .boolean truth ∧
        applyInfix serial ">" (.string 3 "ab") (.string 2 "a") = .boolean truth := by
  intro least again
  obtain ⟨-, reflexive, symmetric, transitive, keys, same_keys, order, less_trans⟩ :=
    comparisons_lawful
  have least_fits : Word.Fits (-0x8000000000000000) := by decide
  have least_key : least.IsKey := least_fits
  have again_key : again.IsKey := least_fits
  have equal : Affirms "==" least again :=
    same_keys least again least_key again_key (by decide) rfl
  have equal_back := symmetric least again equal
  have less : Affirms "<" (.string 2 "a") (.string 3 "ab") :=
    (affirms_less_texts 2 3 "a" "ab").mpr (by decide)
  have next_less : Affirms "<" (.string 3 "ab") (.string 4 "b") :=
    (affirms_less_texts 3 4 "ab" "b").mpr (by decide)
  exact ⟨equal, equal_back, transitive least again least equal equal_back, least_key, again_key,
    keys least again equal, reflexive .null, .texts, .texts, less, next_less,
    less_trans _ _ _ .texts .texts less next_less, (order _ _ .texts).1⟩

end Operation
end MarmosetLang
