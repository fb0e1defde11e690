/-!
# Machine words

Arithmetic is done on all integers and then brought back to the signed numbers of 64 bits.  Since
wrapping keeps an integer modulo `2 ^ 64`, it does not matter whether a sum or product is wrapped at
every step or once at the end.
-/

namespace MarmosetLang
namespace Word

/-- The number of different words, the 64th power of two. -/
def modulus : Nat := 0x10000000000000000

/-- The signed word that agrees with an integer modulo the number of words. -/
def wrap (number : Int) : Int :=
  number.bmod modulus

/-- The unsigned word that agrees with an integer modulo the number of words. -/
def unsigned (number : Int) : UInt64 :=
  UInt64.ofNat (number % modulus).toNat

/-- The quotient of two integers, with its fraction cut off. -/
def quotient (dividend divisor : Int) : Int :=
  dividend.tdiv divisor

theorem wrap_wrap (number : Int) : wrap (wrap number) = wrap number := by
  simp [wrap]

theorem wrap_wrap_add (number other : Int) : wrap (wrap number + other) = wrap (number + other) :=
  Int.bmod_add_bmod

theorem wrap_add_wrap (number other : Int) : wrap (number + wrap other) = wrap (number + other) :=
  Int.add_bmod_bmod

end Word
end MarmosetLang
