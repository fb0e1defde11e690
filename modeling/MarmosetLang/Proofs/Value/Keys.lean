import MarmosetLang.Value

/-!
# Keys

What it takes for two values to be the same key.  Numbers of 64 bits and truth values are the same
key only if they are equal.  Of a text nothing but its fingerprint counts, so two texts that happen
to have the same one are the same key.
-/

namespace MarmosetLang

namespace Word

/-- A number is one of the signed words. -/
def Fits (number : Int) : Prop :=
  -0x8000000000000000 ≤ number ∧ number ≤ 0x7fffffffffffffff

instance (number : Int) : Decidable (Fits number) :=
  inferInstanceAs (Decidable (_ ∧ _))

theorem fits_wrap (number : Int) : Fits (wrap number) := by
  have bounds := And.intro (Int.le_bmod (x := number) (m := modulus) (by decide))
    (Int.bmod_lt (x := number) (m := modulus) (by decide))
  simp only [Fits, wrap, modulus] at bounds ⊢
  omega

/-- Signed words that agree as unsigned ones are equal. -/
theorem unsigned_eq_iff {number other : Int} (fits : Fits number) (other_fits : Fits other) :
    unsigned number = unsigned other ↔ number = other := by
  constructor
  · intro same
    have residues := congrArg UInt64.toNat same
    have bound (number : Int) : (number % modulus).toNat < UInt64.size := by
      have nonneg := Int.emod_nonneg number (b := modulus) (by decide)
      have lt := Int.emod_lt_of_pos number (b := modulus) (by decide)
      simp only [modulus, UInt64.size] at nonneg lt ⊢
      omega
    rw [unsigned, unsigned, UInt64.toNat_ofNat_of_lt' (bound _),
      UInt64.toNat_ofNat_of_lt' (bound _)] at residues
    simp only [Fits, modulus] at *
    omega
  · rintro rfl
    rfl

end Word

namespace Value

/-- A value can be a key: it is a number of 64 bits, a truth value or a text. -/
def IsKey : Value → Prop
  | integer _ number => Word.Fits number
  | boolean _ | string _ _ => True
  | _ => False

/-- Two values are the same key: they are equal numbers or truth values, or texts with equal
fingerprints. -/
def sameKey : Value → Value → Bool
  | integer _ number, integer _ other => number = other
  | boolean truth, boolean other => truth = other
  | string _ text, string _ other => Fingerprint.ofText text = Fingerprint.ofText other
  | _, _ => false

theorem IsKey.exists_slot {key : Value} (is_key : key.IsKey) : ∃ slot, key.slot? = some slot := by
  cases key with
  | integer | boolean | string => exact ⟨_, rfl⟩
  | _ => exact is_key.elim

/-- Keys have the same slot exactly if they are the same key. -/
theorem slot?_eq_iff_sameKey {key other : Value} (is_key : key.IsKey) (other_is_key : other.IsKey) :
    key.slot? = other.slot? ↔ key.sameKey other = true := by
  cases key with
  | integer serial number =>
      cases other with
      | integer other_serial other =>
          simpa [slot?, sameKey] using Word.unsigned_eq_iff is_key other_is_key
      | boolean | string => simp [slot?, sameKey]
      | _ => exact other_is_key.elim
  | boolean truth =>
      cases other with
      | boolean other => cases truth <;> cases other <;> simp [slot?, sameKey]
      | integer | string => simp [slot?, sameKey]
      | _ => exact other_is_key.elim
  | string serial text =>
      cases other with
      | string => simp [slot?, sameKey]
      | integer | boolean => simp [slot?, sameKey]
      | _ => exact other_is_key.elim
  | _ => exact is_key.elim

end Value

end MarmosetLang
