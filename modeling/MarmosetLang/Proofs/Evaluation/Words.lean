import MarmosetLang.Proofs.Evaluation.Preservation
import MarmosetLang.Proofs.Grammar.Exactness
import MarmosetLang.Proofs.Grammar.Numerals
import MarmosetLang.Proofs.Value.Keys

/-!
# Numbers stay words

The parser lets no literal pass that is no word of 64 bits, arithmetic wraps, and nothing else makes
a number but the measuring of texts and rows.  So all numbers in a run are words, as long as nothing
too long is measured, and then different numbers are different keys.
-/

namespace MarmosetLang

namespace Value

/-- A number is a word, and so are the literals in the body of a function. -/
def FitsWord : Value → Prop
  | integer _ number => Word.Fits number
  | function _ _ body _ => body.Every Expr.InRange
  | _ => True

/-- A value is a text of so many bytes or a row of so many elements that no word can say how
many. -/
def isOverlong : Value → Bool
  | string _ text => 0x8000000000000000 ≤ text.utf8ByteSize
  | array _ elements => 0x8000000000000000 ≤ elements.length
  | _ => false

theorem fitsWord_length {argument : Value} (short : argument.isOverlong = false) (serial : Nat) :
    (Builtin.length serial argument).Every FitsWord := by
  have fits {count : Nat} (lt : count < 0x8000000000000000) : Word.Fits count := by
    constructor <;> omega
  cases argument with
  | string => exact .integer (fits (Nat.lt_of_not_le (of_decide_eq_false short)))
  | array => exact .integer (fits (Nat.lt_of_not_le (of_decide_eq_false short)))
  | _ => exact .error trivial

end Value

namespace Evaluation

open Value

/-- A call takes the length of something too long. -/
def measuresOverlong (callee : Value) (arguments : List Value) : Bool :=
  match callee, arguments with
  | .builtin .len, [argument] => argument.isOverlong
  | _, _ => false

/-- The operations of the language, except that nothing too long can be measured.  Where this makes
no difference to a run, nothing too long is measured in it. -/
def Operations.measured : Operations :=
  { Operations.standard with
    call := fun inner callee arguments =>
      if measuresOverlong callee arguments then Run.exhausted
      else Evaluation.call inner callee arguments }

theorem lawful_fitsWord : Lawful Expr.InRange (fun _ => True) FitsWord where
  wrapped _ number := Word.fits_wrap number
  boolean _ := trivial
  null := trivial
  string _ _ := trivial
  array _ _ := trivial
  builtin _ := trivial
  returned _ _ := trivial
  error _ _ := trivial
  integer {token value} in_range serial := by
    change value ≤ 0x7fffffffffffffff at in_range
    constructor <;> omega
  hash_nil _ := trivial
  hash_insert _ _ _ _ := trivial
  function _ every _ _ := every
  called every := ⟨every, trivial⟩

theorem preserves_measured (region : ScopeId → Prop) :
    Operations.measured.Preserves Expr.InRange region
      fun value => FitsWord value ∧ value.HomeIn region := by
  have lawful := lawful_fitsWord.confine region
  refine preserves_of_call lawful fun inner other callee arguments follows every each => ?_
  -- Only a length could be no word, and it is taken of nothing too long.
  cases overlong : measuresOverlong callee arguments with
  | true => exact .exhausted
  | false =>
      refine abides_call lawful follows every each ?_
      rintro argument rfl rfl serial
      refine (fitsWord_length overlong serial).confine fun scope captures => ?_
      cases argument <;> exact nomatch captures

/-- Every literal that the parser lets pass is a word.  A program with such literals, carried out
where all numbers that can be seen are words, leaves it so and comes to no other number on the way,
as long as nothing too long is measured.  Words are different keys unless they are equal, and none
of them is the same key as a truth value or a text. -/
theorem fitsWord_preserved :
    (∀ text parsed, Grammar.parseText text = .ok parsed → parsed.program.Every Expr.InRange) ∧
    (∀ (text : Program) (store : Store) (home : ScopeId) (depth : Nat),
      text.Every Expr.InRange → store.HoldsFrom FitsWord home →
      program (evaluateWith .measured depth) home text store =
        program (evaluate depth) home text store →
      Preserved FitsWord store home (program (evaluate depth) home text store) ∧
        ∀ inspect : Value → Run Value,
          (∀ value, value.Every FitsWord → inspect value = pure value) →
            program (inspected inspect .measured depth) home text store =
              program (evaluate depth) home text store) ∧
    (∀ serial other number second, FitsWord (.integer serial number) →
      FitsWord (.integer other second) →
        ((Value.integer serial number).slot? = (Value.integer other second).slot? ↔
          number = second)) ∧
    ∀ serial number (key : Value), key.tag = .boolean ∨ key.tag = .string →
      (Value.integer serial number).slot? ≠ key.slot? := by
  refine ⟨fun text parsed parse_eq => (Grammar.examined_of_parse parse_eq).2, ?_, ?_, ?_⟩
  · intro text store home depth in_range fits measured
    rw [← measured]
    exact preserved_program lawful_fitsWord preserves_measured fits in_range depth
  · intro serial other number second fits second_fits
    simpa [slot?] using Word.unsigned_eq_iff fits second_fits
  · intro serial number key sort
    cases key with
    | boolean | string => simp [slot?]
    | _ => simp [tag] at sort

/-- The sum of a length and the largest word. -/
def lengthSum : Program :=
  ⟨[.expression ⟨.identifier, "len", 0⟩
    (.infixed ⟨.plus, "+", 10⟩
      (.call ⟨.openParen, "(", 3⟩ (.identifier ⟨.identifier, "len", 0⟩)
        [.string ⟨.string, "ab", 4⟩])
      (.integer ⟨.integer, "9223372036854775807", 12⟩ (Decimal.value "9223372036854775807")))]⟩

theorem parseText_lengthSum :
    Grammar.parseText "len(\"ab\") + 9223372036854775807;" = .ok ⟨lengthSum, [], 0⟩ := by
  have scanned : Token.scan "len(\"ab\") + 9223372036854775807;" =
      [⟨.identifier, "len", 0⟩, ⟨.openParen, "(", 3⟩, ⟨.string, "ab", 4⟩, ⟨.closeParen, ")", 8⟩,
        ⟨.plus, "+", 10⟩, ⟨.integer, "9223372036854775807", 12⟩, ⟨.semicolon, ";", 31⟩] := by
    decide +kernel
  have length (after : List Token) : Spelled
      (.bare (.call ⟨.openParen, "(", 3⟩ (.identifier ⟨.identifier, "len", 0⟩)
        [.string ⟨.string, "ab", 4⟩]))
      (⟨.identifier, "len", 0⟩ :: ⟨.openParen, "(", 3⟩ :: ⟨.string, "ab", 4⟩ ::
        ⟨.closeParen, ")", 8⟩ :: after) after :=
    .call rfl (.ungrouped (by decide) (.identifier rfl))
      (.items (.ungrouped (by decide) (.string rfl)) (.noOtherItems rfl))
  have largest (after : List Token) : Spelled
      (.bare (.integer ⟨.integer, "9223372036854775807", 12⟩ (Decimal.value "9223372036854775807")))
      (⟨.integer, "9223372036854775807", 12⟩ :: after) after :=
    .integer rfl (by decide +kernel) (by decide +kernel)
  have spelled : lengthSum.Spelled (Token.scan "len(\"ab\") + 9223372036854775807;") := by
    rw [scanned]
    exact .statements (.standing (.ungrouped (by decide) (.infixed (by decide)
      (.ungrouped (by decide) (length _)) (.ungrouped (by decide) (largest _)))) (.semicolon rfl))
      .noStatements
  obtain ⟨after, read⟩ := @Grammar.reads_of_spelled (Stream.ofText _) lengthSum spelled
  exact Grammar.parse_eq_of_reads read

/-- The sum of a length and the largest word where a name is bound to the least one. -/
theorem fitsWord_preserved_sample :
    let store : Store := (Store.empty.enclose none).2.bind 0 "n" (.integer 0 (-0x8000000000000000))
    Grammar.parseText "len(\"ab\") + 9223372036854775807;" = .ok ⟨lengthSum, [], 0⟩ ∧
      lengthSum.Every Expr.InRange ∧ store.HoldsFrom FitsWord 0 ∧
      program (evaluateWith .measured 3) 0 lengthSum store =
        program (evaluate 3) 0 lengthSum store ∧
      Preserved FitsWord store 0 (program (evaluate 3) 0 lengthSum store) ∧
      FitsWord (.integer 0 (-0x8000000000000000)) ∧ FitsWord (.integer 1 0) ∧
      ((Value.integer 0 (-0x8000000000000000)).slot? = (Value.integer 1 0).slot? ↔
        (-0x8000000000000000 : Int) = 0) ∧
      (Value.integer 1 0).slot? ≠ (Value.boolean false).slot? := by
  intro store
  have least : FitsWord (.integer 0 (-0x8000000000000000)) := ⟨by decide, by decide⟩
  have zero : FitsWord (.integer 1 0) := ⟨by decide, by decide⟩
  have in_range : lengthSum.Every Expr.InRange := fitsWord_preserved.1 _ _ parseText_lengthSum
  have fits : store.HoldsFrom FitsWord 0 := by
    intro scope found name value _ found_eq bound
    obtain ⟨opened, -⟩ := Array.getElem?_eq_some_iff.mp found_eq
    obtain rfl : scope = 0 := Nat.lt_one_iff.mp opened
    cases found_eq
    change Scope.valueOf? name [("n", .integer 0 (-0x8000000000000000))] = some value at bound
    rw [Scope.valueOf?] at bound
    split at bound
    · cases bound
      exact .integer least
    · cases bound
  have lookup_len : store.lookup "len" 0 = none := by
    rw [Store.lookup]
    rfl
  have measured : program (evaluateWith .measured 3) 0 lengthSum store =
      program (evaluate 3) 0 lengthSum store := by
    simp only [program, statements, statement, lengthSum, evaluate, evaluateWith_succ, expression,
      ifPlain, identifier, collect, bind, Run.bind, Run.lookup, lookup_len]
    rfl
  exact ⟨parseText_lengthSum, in_range, fits, measured,
    (fitsWord_preserved.2.1 lengthSum store 0 3 in_range fits measured).1, least, zero,
    fitsWord_preserved.2.2.1 0 1 _ 0 least zero, fitsWord_preserved.2.2.2 1 0 _ (.inl rfl)⟩

end Evaluation
end MarmosetLang
