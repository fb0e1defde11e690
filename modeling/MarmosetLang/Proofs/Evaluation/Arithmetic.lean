import MarmosetLang.Proofs.Evaluation.Propagation
import MarmosetLang.Proofs.Value.Data

/-!
# Arithmetic

Numbers are combined as signed machine words of 64 bits are.  An integer goes to its word as sums,
differences, products and opposites do, so an expression made of these comes to the word of what it
amounts to in exact arithmetic, however often it wraps on the way.  A quotient is exact unless it is
the one that is no word, that of the least word and minus one.
-/

namespace MarmosetLang

/-! ## Words -/

namespace Word

theorem wrap_eq_toInt (number : Int) : wrap number = (Int64.ofInt number).toInt :=
  Int64.toInt_ofInt.symm

theorem ofInt_wrap (number : Int) : Int64.ofInt (wrap number) = Int64.ofInt number := by
  rw [wrap_eq_toInt, Int64.ofInt_toInt]

/-- Wrapping forgets nothing but what the word of an integer forgets. -/
theorem wrap_eq_wrap_iff (number other : Int) :
    wrap number = wrap other ↔ Int64.ofInt number = Int64.ofInt other := by
  rw [wrap_eq_toInt, wrap_eq_toInt, Int64.toInt_inj]

theorem wrap_neg_wrap (number : Int) : wrap (-wrap number) = wrap (-number) := by
  rw [wrap_eq_wrap_iff, Int64.ofInt_neg, Int64.ofInt_neg, ofInt_wrap]

theorem natAbs_le_of_fits {number : Int} (fits : Fits number) :
    number.natAbs ≤ 0x8000000000000000 := by
  simp only [Fits] at fits
  omega

/-- Only one quotient of words is no word. -/
theorem fits_quotient {dividend divisor : Int} (fits : Fits dividend)
    (representable : ¬(dividend = least ∧ divisor = -1)) : Fits (quotient dividend divisor) := by
  have magnitude : (quotient dividend divisor).natAbs = dividend.natAbs / divisor.natAbs :=
    Int.natAbs_tdiv dividend divisor
  have dividend_le := natAbs_le_of_fits fits
  have quotient_le := Nat.div_le_self dividend.natAbs divisor.natAbs
  by_cases unit : divisor.natAbs = 1
  · -- By one and minus one the dividend keeps its size, and only its sign matters.
    obtain rfl | rfl : divisor = 1 ∨ divisor = -1 := by omega
    · rwa [quotient, Int.tdiv_one]
    · rw [quotient, Int.tdiv_neg, Int.tdiv_one]
      simp only [Fits, least, and_true] at fits representable ⊢
      omega
  · have halved : dividend.natAbs / divisor.natAbs ≤ dividend.natAbs / 2 := by
      rcases Nat.eq_zero_or_pos divisor.natAbs with zero | positive
      · rw [zero, Nat.div_zero]
        exact Nat.zero_le _
      · exact Nat.div_le_div_left (by omega) (by decide)
    simp only [Fits]
    omega

theorem wrap_quotient {dividend divisor : Int} (fits : Fits dividend) :
    wrap (quotient dividend divisor) =
      if dividend = least ∧ divisor = -1 then least else quotient dividend divisor := by
  split
  · rename_i both
    rw [both.1, both.2]
    decide
  · rename_i representable
    exact wrap_of_fits (fits_quotient fits representable)

/-- The quotient leaves a remainder that is smaller than the divisor and does not have the opposite
sign of the dividend. -/
theorem exists_remainder (dividend : Int) {divisor : Int} (nonzero : divisor ≠ 0) :
    ∃ remainder : Int,
      dividend = divisor * quotient dividend divisor + remainder ∧
      remainder.natAbs < divisor.natAbs ∧ (remainder = 0 ∨ remainder.sign = dividend.sign) := by
  refine ⟨dividend.tmod divisor, (Int.mul_tdiv_add_tmod dividend divisor).symm, ?_, ?_⟩
  · rw [Int.natAbs_tmod]
    exact Nat.mod_lt _ (Int.natAbs_pos.mpr nonzero)
  · by_cases divides : divisor ∣ dividend
    · exact .inl (Int.tmod_eq_zero_of_dvd divides)
    · exact .inr (by rw [Int.sign_tmod, if_neg divides])

end Word

/-! ## Sums, differences, products and opposites -/

/-- An expression made of integer literals by addition, subtraction, multiplication and negation,
and what it amounts to in exact arithmetic. -/
inductive Expr.AmountsTo : Expr → Int → Prop where
  | integer {token : Token} {value : Nat} : AmountsTo (.integer token value) value
  | negation {operator : Token} {operand : Expr} {amount : Int} (sign : operator.literal = "-")
      (inside : AmountsTo operand amount) : AmountsTo (.prefixed operator operand) (-amount)
  | sum {operator : Token} {left right : Expr} {amount other : Int}
      (sign : operator.literal = "+") (before : AmountsTo left amount)
      (behind : AmountsTo right other) : AmountsTo (.infixed operator left right) (amount + other)
  | difference {operator : Token} {left right : Expr} {amount other : Int}
      (sign : operator.literal = "-") (before : AmountsTo left amount)
      (behind : AmountsTo right other) : AmountsTo (.infixed operator left right) (amount - other)
  | product {operator : Token} {left right : Expr} {amount other : Int}
      (sign : operator.literal = "*") (before : AmountsTo left amount)
      (behind : AmountsTo right other) : AmountsTo (.infixed operator left right) (amount * other)

/-- The number of levels of operators, with one more for the innermost operands. -/
def Expr.height : Expr → Nat
  | .prefixed _ operand => height operand + 1
  | .infixed _ left right => max (height left) (height right) + 1
  | _ => 1

theorem Expr.exists_of_height_le {tree : Expr} {depth : Nat} (deep : tree.height ≤ depth) :
    ∃ less, depth = less + 1 := by
  have positive : 0 < tree.height := by cases tree <;> exact Nat.succ_pos _
  exact Nat.exists_eq_add_one.mpr (Nat.lt_of_lt_of_le positive deep)

namespace Evaluation

/-- Wherever it may go down as many levels as it has, an expression comes to a number with a
property, and it opens no scope, binds no name and prints nothing. -/
def ComesTo (tree : Expr) (property : Int → Prop) : Prop :=
  ∀ (depth : Nat) (scope : ScopeId) (store : Store), tree.height ≤ depth →
    ∃ serial number made,
      evaluate depth tree scope store =
        (.finished (.integer serial number), { store with made := made }) ∧ property number

theorem ComesTo.imp {tree : Expr} {property other : Int → Prop} (comes : ComesTo tree property)
    (implies : ∀ number, property number → other number) : ComesTo tree other := by
  intro depth scope store deep
  obtain ⟨serial, number, made, run_eq, holds⟩ := comes depth scope store deep
  exact ⟨serial, number, made, run_eq, implies number holds⟩

theorem comesTo_integer (token : Token) (value : Nat) :
    ComesTo (.integer token value) (· = value) := by
  intro depth scope store deep
  obtain ⟨depth, rfl⟩ := Expr.exists_of_height_le deep
  refine ⟨store.made, value, store.made + 1, ?_, rfl⟩
  rw [evaluate_succ]
  rfl

theorem comesTo_negation {operator : Token} {operand : Expr} {amount : Int}
    (sign : operator.literal = "-")
    (inside : ComesTo operand fun number => Word.wrap number = Word.wrap amount) :
    ComesTo (.prefixed operator operand) (· = Word.wrap (-amount)) := by
  intro depth scope store deep
  obtain ⟨depth, rfl⟩ := Expr.exists_of_height_le deep
  obtain ⟨serial, number, made, run_eq, agree⟩ :=
    inside depth scope store (Nat.le_of_succ_le_succ deep)
  refine ⟨made, Word.wrap (-number), made + 1, ?_, ?_⟩
  · rw [evaluate_succ, expression, ifPlain_of_no_signal _ run_eq rfl, sign]
    rfl
  · change Word.wrap (-number) = Word.wrap (-amount)
    rw [← Word.wrap_neg_wrap, agree, Word.wrap_neg_wrap]

/-- What holds of each operator alike: it makes the word of what an operation on integers makes, and
the operation makes the same word of integers with the same words. -/
theorem comesTo_infixed {operator : Token} {left right : Expr} {amount other : Int}
    (operation : Int → Int → Int)
    (applies : ∀ serial before behind left right,
      Operation.applyInfix serial operator.literal (.integer before left) (.integer behind right) =
        .integer serial (Word.wrap (operation left right)))
    (congruent : ∀ {left right amount other : Int}, Word.wrap left = Word.wrap amount →
      Word.wrap right = Word.wrap other →
        Word.wrap (operation left right) = Word.wrap (operation amount other))
    (before : ComesTo left fun number => Word.wrap number = Word.wrap amount)
    (behind : ComesTo right fun number => Word.wrap number = Word.wrap other) :
    ComesTo (.infixed operator left right) (· = Word.wrap (operation amount other)) := by
  intro depth scope store deep
  obtain ⟨depth, rfl⟩ := Expr.exists_of_height_le deep
  have deep := Nat.max_le.mp (Nat.le_of_succ_le_succ deep)
  obtain ⟨left_serial, left_number, between, left_run, left_agrees⟩ :=
    before depth scope store deep.1
  obtain ⟨right_serial, right_number, made, right_run, right_agrees⟩ :=
    behind depth scope { store with made := between } deep.2
  refine ⟨made, Word.wrap (operation left_number right_number), made + 1, ?_,
    congruent left_agrees right_agrees⟩
  rw [evaluate_succ, expression, ifPlain_of_no_signal _ left_run rfl,
    ifPlain_of_no_signal _ right_run rfl]
  exact congrArg (fun value => (Outcome.finished value, _)) (applies made _ _ _ _)

theorem comesTo_sum {operator : Token} {left right : Expr} {amount other : Int}
    (sign : operator.literal = "+")
    (before : ComesTo left fun number => Word.wrap number = Word.wrap amount)
    (behind : ComesTo right fun number => Word.wrap number = Word.wrap other) :
    ComesTo (.infixed operator left right) (· = Word.wrap (amount + other)) := by
  refine comesTo_infixed (· + ·) (fun _ _ _ _ _ => by rw [sign]; rfl) (fun same same_other => ?_)
    before behind
  rw [Word.wrap_eq_wrap_iff] at same same_other ⊢
  rw [Int64.ofInt_add, Int64.ofInt_add, same, same_other]

theorem comesTo_difference {operator : Token} {left right : Expr} {amount other : Int}
    (sign : operator.literal = "-")
    (before : ComesTo left fun number => Word.wrap number = Word.wrap amount)
    (behind : ComesTo right fun number => Word.wrap number = Word.wrap other) :
    ComesTo (.infixed operator left right) (· = Word.wrap (amount - other)) := by
  refine comesTo_infixed (· - ·) (fun _ _ _ _ _ => by rw [sign]; rfl) (fun same same_other => ?_)
    before behind
  rw [Word.wrap_eq_wrap_iff] at same same_other ⊢
  rw [Int64.ofInt_sub, Int64.ofInt_sub, same, same_other]

theorem comesTo_product {operator : Token} {left right : Expr} {amount other : Int}
    (sign : operator.literal = "*")
    (before : ComesTo left fun number => Word.wrap number = Word.wrap amount)
    (behind : ComesTo right fun number => Word.wrap number = Word.wrap other) :
    ComesTo (.infixed operator left right) (· = Word.wrap (amount * other)) := by
  refine comesTo_infixed (· * ·) (fun _ _ _ _ _ => by rw [sign]; rfl) (fun same same_other => ?_)
    before behind
  rw [Word.wrap_eq_wrap_iff] at same same_other ⊢
  rw [Int64.ofInt_mul, Int64.ofInt_mul, same, same_other]

theorem comesTo_of_amountsTo {tree : Expr} {amount : Int} (amounts : tree.AmountsTo amount) :
    ComesTo tree fun number => Word.wrap number = Word.wrap amount := by
  have wrapped {amount : Int} : ∀ number, number = Word.wrap amount →
      Word.wrap number = Word.wrap amount := by
    rintro _ rfl
    exact Word.wrap_wrap amount
  induction amounts with
  | integer => exact (comesTo_integer _ _).imp fun _ => congrArg Word.wrap
  | negation sign _ ih => exact (comesTo_negation sign ih).imp wrapped
  | sum sign _ _ ih_before ih_behind => exact (comesTo_sum sign ih_before ih_behind).imp wrapped
  | difference sign _ _ ih_before ih_behind =>
      exact (comesTo_difference sign ih_before ih_behind).imp wrapped
  | product sign _ _ ih_before ih_behind =>
      exact (comesTo_product sign ih_before ih_behind).imp wrapped

/-- A literal by itself is the one expression that is not wrapped, so it has to be a word. -/
theorem comesTo_wrap_of_amountsTo {tree : Expr} {amount : Int} (amounts : tree.AmountsTo amount)
    (fits : ∀ token value, tree = .integer token value → Word.Fits value) :
    ComesTo tree (· = Word.wrap amount) := by
  cases amounts with
  | @integer token value =>
      rw [Word.wrap_of_fits (fits token value rfl)]
      exact comesTo_integer token value
  | negation sign inside => exact comesTo_negation sign (comesTo_of_amountsTo inside)
  | sum sign before behind =>
      exact comesTo_sum sign (comesTo_of_amountsTo before) (comesTo_of_amountsTo behind)
  | difference sign before behind =>
      exact comesTo_difference sign (comesTo_of_amountsTo before) (comesTo_of_amountsTo behind)
  | product sign before behind =>
      exact comesTo_product sign (comesTo_of_amountsTo before) (comesTo_of_amountsTo behind)

/-- Numbers are combined as machine words of 64 bits.  The quotient is cut off towards zero and only
wraps for the least word by minus one, division by zero is a mistake, and comparisons are exact.  An
expression made of literals, sums, differences, products and opposites comes to the word of its
exact amount, however deep it is.  Literals are words, for the parser lets no other ones pass. -/
theorem arithmetic_of_words :
    (∀ (serial first second : Nat) (left right : Int), Word.Fits left → Word.Fits right →
      let infixed (operator : String) :=
        Operation.applyInfix serial operator (.integer first left) (.integer second right)
      infixed "+" = .integer serial (Int64.ofInt left + Int64.ofInt right).toInt ∧
      infixed "-" = .integer serial (Int64.ofInt left - Int64.ofInt right).toInt ∧
      infixed "*" = .integer serial (Int64.ofInt left * Int64.ofInt right).toInt ∧
      Operation.applyPrefix serial "-" (.integer first left) =
        .integer serial (-Int64.ofInt left).toInt ∧
      (right = 0 → infixed "/" = .error serial .divisionByZero) ∧
      (right ≠ 0 → ∃ quotient remainder : Int,
        left = right * quotient + remainder ∧ remainder.natAbs < right.natAbs ∧
        (remainder = 0 ∨ remainder.sign = left.sign) ∧
        infixed "/" = .integer serial
          (if left = Word.least ∧ right = -1 then Word.least else quotient)) ∧
      infixed "<" = .boolean (left < right) ∧ infixed ">" = .boolean (left > right) ∧
      infixed "==" = .boolean (left = right) ∧ infixed "!=" = .boolean (left ≠ right)) ∧
    ∀ (tree : Expr) (amount : Int), tree.AmountsTo amount →
      (∀ token value, tree = .integer token value → Word.Fits value) →
      ∀ (depth : Nat) (scope : ScopeId) (store : Store), tree.height ≤ depth →
        ∃ serial made, evaluate depth tree scope store =
          (.finished (.integer serial (Word.wrap amount)), { store with made := made }) := by
  constructor
  · intro serial first second left right fits _
    refine ⟨?_, ?_, ?_, ?_, ?_, ?_, rfl, rfl, rfl, rfl⟩
    · rw [← Int64.ofInt_add, ← Word.wrap_eq_toInt]
      rfl
    · rw [← Int64.ofInt_sub, ← Word.wrap_eq_toInt]
      rfl
    · rw [← Int64.ofInt_mul, ← Word.wrap_eq_toInt]
      rfl
    · rw [← Int64.ofInt_neg, ← Word.wrap_eq_toInt]
      rfl
    · rintro rfl
      rfl
    · intro nonzero
      obtain ⟨remainder, left_eq, smaller, same_sign⟩ := Word.exists_remainder left nonzero
      refine ⟨Word.quotient left right, remainder, left_eq, smaller, same_sign, ?_⟩
      rw [← Word.wrap_quotient fits]
      exact if_neg nonzero
  · intro tree amount amounts fits depth scope store deep
    obtain ⟨serial, _, made, run_eq, rfl⟩ :=
      comesTo_wrap_of_amountsTo amounts fits depth scope store deep
    exact ⟨serial, made, run_eq⟩

/-- The least word by minus one, and the expression `-9223372036854775807 - 2 * 5` in an empty
store. -/
theorem arithmetic_of_words_sample :
    let tree : Expr :=
      .infixed ⟨.minus, "-", 21⟩
        (.prefixed ⟨.minus, "-", 0⟩ (.integer ⟨.integer, "9223372036854775807", 1⟩
          9223372036854775807))
        (.infixed ⟨.asterisk, "*", 25⟩ (.integer ⟨.integer, "2", 23⟩ 2)
          (.integer ⟨.integer, "5", 27⟩ 5))
    Word.Fits Word.least ∧ Word.Fits (-1) ∧
      Operation.applyInfix 2 "/" (.integer 0 Word.least) (.integer 1 (-1)) =
        .integer 2 Word.least ∧
      tree.AmountsTo (-9223372036854775817) ∧
      ∃ serial made, evaluate 3 tree 0 Store.empty =
        (.finished (.integer serial 9223372036854775799), { Store.empty with made := made }) := by
  intro tree
  have least_fits : Word.Fits Word.least := by decide
  have opposite_fits : Word.Fits (-1) := by decide
  obtain ⟨-, -, -, -, -, divided, -⟩ :=
    arithmetic_of_words.1 2 0 1 Word.least (-1) least_fits opposite_fits
  obtain ⟨_, _, -, -, -, quotient_eq⟩ := divided (by decide)
  have amounts : tree.AmountsTo (-(9223372036854775807 : Nat) - (2 : Nat) * (5 : Nat)) :=
    .difference rfl (.negation rfl .integer) (.product rfl .integer .integer)
  have fits : ∀ token value, tree = .integer token value → Word.Fits value := fun _ _ same =>
    Expr.noConfusion same
  exact ⟨least_fits, opposite_fits, quotient_eq, amounts,
    arithmetic_of_words.2 tree _ amounts fits 3 0 Store.empty (by decide)⟩

end Evaluation
end MarmosetLang
