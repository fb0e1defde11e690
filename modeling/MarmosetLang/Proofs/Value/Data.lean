import MarmosetLang.Proofs.Token.Contents
import MarmosetLang.Proofs.Value.Alike
import MarmosetLang.Proofs.Value.Every
import MarmosetLang.Proofs.Value.Keys

/-!
# Data

Data are numbers of 64 bits, truth values, rows of data, and hashes of data with numbers and truth
values as keys.  They are displayed as they would be written in a program, except that a number
below zero is written as the opposite of one above.
-/

namespace MarmosetLang

namespace Word

/-- The least of the signed words.  It is the only one whose opposite is none of them. -/
def least : Int := -0x8000000000000000

theorem wrap_of_fits {number : Int} (fits : Fits number) : wrap number = number := by
  refine Int.bmod_eq_of_le ?_ ?_ <;> simp only [Fits, modulus] at * <;> omega

end Word

/-- No word has more than nineteen digits. -/
theorem Decimal.length_ofNat_le {number : Nat} (le : number ≤ 0x8000000000000000) :
    (ofNat number).length ≤ 19 := by
  rw [ofNat, String.length_ofList, Nat.length_toDigits_le_iff (by decide) (by decide)]
  omega

namespace Dictionary

theorem insert_of_not_mem {α : Type} {entries : List (Entry α)} {entry : Entry α}
    (new : entry.slot ∉ entries.map Entry.slot) : insert entries entry = entries ++ [entry] := by
  induction entries with
  | nil => rfl
  | cons first rest ih =>
      rw [List.map_cons, List.mem_cons, not_or] at new
      rw [insert, if_neg (Ne.symm new.1), ih new.2, List.cons_append]

/-- Entries with different slots keep their order when they are entered one after another. -/
theorem foldl_insert_of_nodup {α : Type} {entries : List (Entry α)}
    (nodup : (entries.map Entry.slot).Nodup) : entries.foldl insert [] = entries := by
  -- From the end, because the last entry comes behind all others.
  induction entries using List.reverseRecOn with
  | nil => rfl
  | append_singleton earlier entry ih =>
      rw [List.map_append, List.nodup_append] at nodup
      obtain ⟨earlier_nodup, -, differ⟩ := nodup
      have new : entry.slot ∉ earlier.map Entry.slot := fun member =>
        differ _ member _ List.mem_cons_self rfl
      rw [List.foldl_append, ih earlier_nodup, List.foldl_cons, List.foldl_nil,
        insert_of_not_mem new]

end Dictionary

namespace Value

/-- A value has what it takes to be displayed as it may be written: it is a number of 64 bits or a
truth value, or it is a row, or a hash with no two keys the same.  Keys among data are
numbers and truth values, because no others have slots. -/
def IsDatum : Value → Prop
  | integer _ number => Word.Fits number
  | boolean _ | array _ _ => True
  | hash _ entries =>
      (∀ entry ∈ entries, entry.key.slot? = some entry.slot) ∧ (entries.map Entry.slot).Nodup
  | _ => False

/-- A value is not the one number whose opposite does not fit. -/
def HasOpposite : Value → Prop
  | integer _ number => number ≠ Word.least
  | _ => True

/-- Two values have the same structure: the same numbers and texts in the same places. -/
abbrev SameStructure : Value → Value → Prop :=
  Alike (fun _ _ => True) (fun _ _ => True) id

mutual

/-- The number of levels that evaluation goes down for a value that is written out. -/
def levels : Value → Nat
  | array _ elements => levelsEach elements + 1
  | hash _ entries => levelsEntries entries + 1
  | _ => 2

/-- The greatest number of levels for any of some values. -/
def levelsEach : List Value → Nat
  | [] => 0
  | first :: rest => max (levels first) (levelsEach rest)

/-- The greatest number of levels for any key or value of some entries. -/
def levelsEntries : List (Entry Value) → Nat
  | [] => 0
  | ⟨_, key, value⟩ :: rest => max (max (levels key) (levels value)) (levelsEntries rest)

end

/-! ## What is displayed -/

open Token (Scans)

/-- The contents of the text as which a value is displayed. -/
def contents (value : Value) : List (Kind × String) :=
  Token.contentsOf value.render.toList

/-- The contents of an entry. -/
def entryContents (entry : Entry Value) : List (Kind × String) :=
  entry.key.contents ++ (.colon, ":") :: entry.value.contents

/-- The text as which a value is displayed has the same contents wherever it stands. -/
def IsLegible (value : Value) : Prop :=
  Scans value.render.toList value.contents

theorem isLegible_of_scans {value : Value} {contents : List (Kind × String)}
    (scans : Scans value.render.toList contents) : value.IsLegible ∧ value.contents = contents := by
  have contents_eq := scans.contentsOf_eq
  exact ⟨by rwa [IsLegible, Value.contents, contents_eq], contents_eq⟩

theorem scans_ofNat (number : Nat) :
    Scans (Decimal.ofNat number).toList [(.integer, Decimal.ofNat number)] := by
  have digits : ∀ c ∈ Nat.toDigits 10 number, c.isDigit = true := fun c member =>
    Nat.isDigit_of_mem_toDigits (by decide) (by decide) member
  rw [Decimal.ofNat, String.toList_ofList]
  exact .numeral Nat.toDigits_ne_nil digits

theorem legible_natural (serial number : Nat) :
    (integer serial (.ofNat number)).IsLegible ∧
      (integer serial (.ofNat number)).contents = [(.integer, Decimal.ofNat number)] := by
  refine isLegible_of_scans ?_
  rw [render]
  exact scans_ofNat number

theorem legible_negative (serial number : Nat) :
    (integer serial (.negSucc number)).IsLegible ∧
      (integer serial (.negSucc number)).contents =
        [(.minus, "-"), (.integer, Decimal.ofNat (number + 1))] := by
  refine isLegible_of_scans ?_
  rw [render, Decimal.ofInt, String.toList_append]
  exact .mark_cons (by decide : Kind.minus.IsMark '-') (scans_ofNat (number + 1))

theorem legible_boolean (truth : Bool) :
    (boolean truth).IsLegible ∧
      (boolean truth).contents =
        [if truth then (.trueWord, "true") else (.falseWord, "false")] := by
  refine isLegible_of_scans ?_
  cases truth with
  | true => exact .word (by decide) (List.all_eq_true.mp (by decide)) (by decide)
  | false => exact .word (by decide) (List.all_eq_true.mp (by decide)) (by decide)

theorem legible_array (serial : Nat) {elements : List Value}
    (each : ∀ element ∈ elements, element.IsLegible) :
    (array serial elements).IsLegible ∧
      (array serial elements).contents =
        (.openBracket, "[") ::
          ([(.comma, ",")].intercalate (elements.map contents) ++ [(.closeBracket, "]")]) := by
  refine isLegible_of_scans ?_
  have scans : List.Forall₂ (fun text contents => Scans text.toList contents)
      (elements.map render) (elements.map contents) := by
    rw [List.forall₂_map_left_iff, List.forall₂_map_right_iff, List.forall₂_same]
    exact each
  rw [render, renderEach_eq_map, String.toList_append, String.toList_append]
  exact .listing (by decide : Kind.openBracket.IsMark '[')
    (by decide : Kind.closeBracket.IsMark ']') scans

theorem legible_hash (serial : Nat) {entries : List (Entry Value)}
    (keys : ∀ entry ∈ entries, entry.key.IsLegible)
    (values : ∀ entry ∈ entries, entry.value.IsLegible) :
    (hash serial entries).IsLegible ∧
      (hash serial entries).contents =
        (.openBrace, "\x7b") ::
          ([(.comma, ",")].intercalate (entries.map entryContents) ++
            [(.closeBrace, "\x7d")]) := by
  refine isLegible_of_scans ?_
  have scans : List.Forall₂ (fun text contents => Scans text.toList contents)
      (entries.map fun entry => entry.key.render ++ ": " ++ entry.value.render)
      (entries.map entryContents) := by
    rw [List.forall₂_map_left_iff, List.forall₂_map_right_iff, List.forall₂_same]
    intro entry member
    have entry_scans : Scans (entry.key.render.toList ++ ':' :: ' ' :: entry.value.render.toList)
        (entryContents entry) :=
      .append_mark (by decide : Kind.colon.IsMark ':') (keys entry member)
        (.layout_cons (by decide) (values entry member))
    rw [String.toList_append, String.toList_append, List.append_assoc]
    exact entry_scans
  rw [render, renderEntries_eq_map, String.toList_append, String.toList_append]
  exact .listing (by decide : Kind.openBrace.IsMark '\x7b')
    (by decide : Kind.closeBrace.IsMark '\x7d') scans

end Value
end MarmosetLang
