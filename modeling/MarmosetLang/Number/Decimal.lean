/-!
# Decimal numerals

Reading and writing whole numbers in base ten, without signs other than a leading minus and without
leading zeros in what is written.
-/

namespace MarmosetLang
namespace Decimal

/-- The number that a string of decimal digits stands for. -/
def value (digits : String) : Nat :=
  Nat.ofDigitChars 10 digits.toList 0

/-- The decimal digits of a natural number. -/
def ofNat (number : Nat) : String :=
  String.ofList (Nat.toDigits 10 number)

/-- The decimal digits of an integer, after a minus sign if it is negative. -/
def ofInt : Int → String
  | .ofNat number => ofNat number
  | .negSucc number => "-" ++ ofNat (number + 1)

theorem value_ofNat (number : Nat) : value (ofNat number) = number := by
  simp [value, ofNat, Nat.ofDigitChars_ten_toDigits]

end Decimal
end MarmosetLang
