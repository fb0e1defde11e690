import MarmosetLang.Value
import Mathlib.Logic.Function.Basic

/-!
# Near misses

A fingerprint takes in one byte after another, and every byte permutes the states: exclusive or can
be undone, and so can the multiplication, because its multiplier is odd.  Once two states differ
they differ for good, whatever is taken in afterwards.  So texts that come close to each other, with
just one byte of their encodings changed, are different keys.
-/

namespace MarmosetLang

/-- Two strings of bytes are equally long and differ in a single place. -/
def DifferOnce (bytes other : List UInt8) : Prop :=
  bytes.length = other.length ∧
    ∃ place : Nat, bytes[place]? ≠ other[place]? ∧
      ∀ elsewhere, elsewhere ≠ place → bytes[elsewhere]? = other[elsewhere]?

/-- Before and after the place there are the same bytes on both sides. -/
theorem DifferOnce.exists_eq_append {bytes other : List UInt8} (differ : DifferOnce bytes other) :
    ∃ before first second after, first ≠ second ∧
      bytes = before ++ first :: after ∧ other = before ++ second :: after := by
  obtain ⟨length_eq, place, differs, same⟩ := differ
  have inside : place < bytes.length := by
    refine Nat.lt_of_not_le fun beyond => differs ?_
    rw [List.getElem?_eq_none beyond, List.getElem?_eq_none (length_eq ▸ beyond)]
  have other_inside : place < other.length := length_eq ▸ inside
  refine ⟨bytes.take place, bytes[place], other[place], bytes.drop (place + 1), ?_, ?_, ?_⟩
  · intro equal
    rw [List.getElem?_eq_getElem inside, List.getElem?_eq_getElem other_inside, equal] at differs
    exact differs rfl
  · rw [List.getElem_cons_drop, List.take_append_drop]
  · have before_eq : bytes.take place = other.take place := by
      refine List.ext_getElem? fun index => ?_
      rw [List.getElem?_take, List.getElem?_take]
      split
      · rename_i earlier
        exact same index (Nat.ne_of_lt earlier)
      · rfl
    have after_eq : bytes.drop (place + 1) = other.drop (place + 1) := by
      refine List.ext_getElem? fun index => ?_
      rw [List.getElem?_drop, List.getElem?_drop]
      exact same _ (by omega)
    rw [before_eq, after_eq, List.getElem_cons_drop, List.take_append_drop]

namespace Fingerprint

/-- The multiplier that undoes the spreading. -/
def inverse : UInt64 := 0xce965057aff6957b

theorem multiplier_mul_inverse : multiplier * inverse = 1 := by decide

/-- The state before a byte was taken in. -/
def unstep (state : UInt64) (byte : UInt8) : UInt64 :=
  (state * inverse) ^^^ byte.toUInt64

theorem unstep_step (state : UInt64) (byte : UInt8) : unstep (step state byte) byte = state := by
  rw [unstep, step, UInt64.mul_assoc, multiplier_mul_inverse, UInt64.mul_one, UInt64.xor_assoc,
    UInt64.xor_self, UInt64.xor_zero]

theorem step_unstep (state : UInt64) (byte : UInt8) : step (unstep state byte) byte = state := by
  rw [step, unstep, UInt64.xor_assoc, UInt64.xor_self, UInt64.xor_zero, UInt64.mul_assoc,
    UInt64.mul_comm inverse, multiplier_mul_inverse, UInt64.mul_one]

/-- Every byte permutes the states. -/
theorem step_bijective (byte : UInt8) : Function.Bijective (step · byte) := by
  refine Function.bijective_iff_has_inverse.mpr ⟨(unstep · byte), ?_, ?_⟩
  · exact fun state => unstep_step state byte
  · exact fun state => step_unstep state byte

/-- From one state, different bytes lead to different states. -/
theorem step_right_injective (state : UInt64) : Function.Injective (step state) := by
  intro first second equal
  have undone : (step state first * inverse) = (step state second * inverse) := by rw [equal]
  rw [step, step, UInt64.mul_assoc, UInt64.mul_assoc, multiplier_mul_inverse, UInt64.mul_one,
    UInt64.mul_one, UInt64.xor_right_inj, UInt8.toUInt64_inj] at undone
  exact undone

/-- In numbers, a byte is mixed in, and the product is reduced to a word. -/
theorem toNat_step (state : UInt64) (byte : UInt8) :
    (step state byte).toNat = (state.toNat ^^^ byte.toNat) * 0x100000001b3 % Word.modulus := by
  rw [step, UInt64.toNat_mul, UInt64.toNat_xor, UInt8.toNat_toUInt64]
  rfl

/-- The states after the same bytes are equal only if those before them are. -/
theorem foldl_step_inj (bytes : List UInt8) {state other : UInt64} :
    bytes.foldl step state = bytes.foldl step other ↔ state = other := by
  induction bytes generalizing state other with
  | nil => rfl
  | cons byte rest ih =>
      rw [List.foldl_cons, List.foldl_cons, ih]
      exact (step_bijective byte).injective.eq_iff

theorem ofBytes_append (bytes later : List UInt8) :
    ofBytes (bytes ++ later) = later.foldl step (ofBytes bytes) :=
  List.foldl_append

theorem ofBytes_append_inj (bytes other later : List UInt8) :
    ofBytes (bytes ++ later) = ofBytes (other ++ later) ↔ ofBytes bytes = ofBytes other := by
  rw [ofBytes_append, ofBytes_append, foldl_step_inj]

/-- One byte that differs makes a difference, whatever stands before and after it. -/
theorem ofBytes_ne (before after : List UInt8) {first second : UInt8} (ne : first ≠ second) :
    ofBytes (before ++ first :: after) ≠ ofBytes (before ++ second :: after) := by
  intro equal
  rw [ofBytes_append, ofBytes_append, List.foldl_cons, List.foldl_cons, foldl_step_inj] at equal
  exact ne (step_right_injective (ofBytes before) equal)

theorem ofText_eq (text : String) : ofText text = ofBytes text.toUTF8.data.toList := by
  rw [ofText, String.toUTF8, ← String.utf8Encode_toList, List.utf8Encode,
    List.toList_data_toByteArray]

theorem ofText_ne {text other : String}
    (differ : DifferOnce text.toUTF8.data.toList other.toUTF8.data.toList) :
    ofText text ≠ ofText other := by
  obtain ⟨before, first, second, after, ne, text_eq, other_eq⟩ := differ.exists_eq_append
  rw [ofText_eq, ofText_eq, text_eq, other_eq]
  exact ofBytes_ne before after ne

/-- A fingerprint is a word of 64 bits that is computed byte by byte.  A byte permutes the states,
and different bytes lead on from the same state to different ones.  So strings of bytes that go on
alike have the same fingerprint only if they had it before, and one byte in the middle makes a
difference.  Texts whose encodings are equally long and differ in one byte are different keys. -/
theorem near_misses_separated :
    (∀ bytes byte, (ofBytes (bytes ++ [byte])).toNat =
      ((ofBytes bytes).toNat ^^^ byte.toNat) * 0x100000001b3 % Word.modulus) ∧
    (∀ bytes, (ofBytes bytes).toNat ≤ 0xffffffffffffffff) ∧
    (∀ byte, Function.Bijective (step · byte)) ∧
    (∀ state, Function.Injective (step state)) ∧
    (∀ bytes other later,
      ofBytes (bytes ++ later) = ofBytes (other ++ later) ↔ ofBytes bytes = ofBytes other) ∧
    (∀ before after first second, first ≠ second →
      ofBytes (before ++ first :: after) ≠ ofBytes (before ++ second :: after)) ∧
    ∀ text other : String, DifferOnce text.toUTF8.data.toList other.toUTF8.data.toList →
      ∀ serial made, (Value.string serial text).slot? ≠ (Value.string made other).slot? := by
  refine ⟨?_, ?_, step_bijective, step_right_injective, ofBytes_append_inj, ?_, ?_⟩
  · intro bytes byte
    rw [ofBytes_append_singleton, toNat_step]
  · intro bytes
    exact Nat.le_of_lt_succ (UInt64.toNat_lt_size _)
  · intro before after first second ne
    exact ofBytes_ne before after ne
  · intro text other differ serial made equal
    simp only [Value.slot?, Option.some.injEq, Slot.mk.injEq, true_and] at equal
    exact ofText_ne differ equal

/-- The names of two items that differ in their numbers. -/
theorem near_misses_separated_sample :
    DifferOnce "item 1".toUTF8.data.toList "item 2".toUTF8.data.toList ∧
      (Value.string 0 "item 1").slot? ≠ (Value.string 1 "item 2").slot? ∧
      (49 : UInt8) ≠ 50 ∧ ofBytes ([105] ++ 49 :: [33]) ≠ ofBytes ([105] ++ 50 :: [33]) := by
  have differ : DifferOnce "item 1".toUTF8.data.toList "item 2".toUTF8.data.toList := by
    refine ⟨rfl, 5, by decide +kernel, fun elsewhere different => ?_⟩
    match elsewhere with
    | 0 | 1 | 2 | 3 | 4 => rfl
    | 5 => exact absurd rfl different
    | elsewhere + 6 => rfl
  obtain ⟨-, -, -, -, -, bytes_ne, keys_ne⟩ := near_misses_separated
  have ne : (49 : UInt8) ≠ 50 := by decide
  exact ⟨differ, keys_ne _ _ differ 0 1, ne, bytes_ne [105] [33] 49 50 ne⟩

end Fingerprint
end MarmosetLang
