import MarmosetLang.Proofs.Grammar.Reading

/-!
# What the rules of the grammar read

For each rule of the grammar, what it takes to read its construct: the kinds of the tokens that it
looks at, and what the rules inside it read.
-/

namespace MarmosetLang
namespace Grammar

open Rule (Reads)

variable {nested : Nat → Rule Expr} {before after : Stream} {value : Expr}

theorem reads_integer :
    integer.Reads before value after ↔
      before.current.literal.length ≤ maxDigits ∧
        Decimal.value before.current.literal ≤ maxInteger ∧
          value = .integer before.current (Decimal.value before.current.literal) ∧
            after = before := by
  by_cases short : before.current.literal.length ≤ maxDigits <;>
    by_cases small : Decimal.value before.current.literal ≤ maxInteger <;>
    simp [integer, and_assoc, short, small]

theorem reads_prefixed :
    (prefixed nested).Reads before value after ↔
      ∃ operand, (nested operandStrength).Reads before.advance operand after ∧
        value = .prefixed before.current operand := by
  simp [prefixed, and_assoc]

theorem reads_grouped :
    (grouped nested).Reads before value after ↔
      ∃ middle, (nested lowest).Reads before.advance value middle ∧
        middle.peek.kind = .closeParen ∧ after = middle.advance := by
  simp only [grouped, Rule.reads_bind, Rule.reads_advance, Rule.reads_expect, Rule.reads_pure]
  constructor
  · rintro ⟨_, _, rfl, inner, middle, read, _, _, ⟨closed, rfl, rfl⟩, rfl, rfl⟩
    exact ⟨middle, read, closed, rfl⟩
  · rintro ⟨middle, read, closed, rfl⟩
    exact ⟨(), _, rfl, value, middle, read, _, _, ⟨closed, rfl, rfl⟩, rfl, rfl⟩

theorem reads_infixed {left : Expr} :
    (infixed nested left).Reads before value after ↔
      ∃ right, (nested (strength before.current.kind)).Reads before.advance right after ∧
        value = .infixed before.current left right := by
  simp [infixed, and_assoc]

theorem reads_selection {container : Expr} :
    (selection nested container).Reads before value after ↔
      ∃ position middle, (nested lowest).Reads before.advance position middle ∧
        middle.peek.kind = .closeBracket ∧
          value = .index before.current container position ∧ after = middle.advance := by
  simp [selection, and_assoc]

theorem reads_binding {construct : Statement} :
    (binding nested).Reads before construct after ↔
      before.peek.kind = .identifier ∧ before.advance.peek.kind = .assign ∧
        ∃ value, (Rule.passing .semicolon (nested lowest)).Reads before.advance.advance.advance
            value after ∧
          construct = .binding before.current before.peek value := by
  simp [binding, and_assoc]

theorem reads_returning {construct : Statement} :
    (returning nested).Reads before construct after ↔
      ∃ value, (Rule.passing .semicolon (nested lowest)).Reads before.advance value after ∧
        construct = .returning before.current value := by
  simp [returning, and_assoc]

theorem reads_standing {construct : Statement} :
    (standing nested).Reads before construct after ↔
      ∃ value, (Rule.passing .semicolon (nested lowest)).Reads before value after ∧
        construct = .expression before.current value := by
  simp [standing, and_assoc]

theorem reads_block {body : Block} :
    (block nested).Reads before body after ↔
      ∃ found, (statements nested fun kind => kind = .closeBrace || kind = .eof).Reads
          before.advance found after ∧
        body = .mk before.current found := by
  simp [block, and_assoc]

theorem reads_conditional :
    (conditional nested).Reads before value after ↔
      before.peek.kind = .openParen ∧
        ∃ condition middle, (nested lowest).Reads before.advance.advance condition middle ∧
          middle.peek.kind = .closeParen ∧ middle.advance.peek.kind = .openBrace ∧
            ∃ consequence later,
              (block nested).Reads middle.advance.advance consequence later ∧
                if later.peek.kind = .elseWord then
                  later.advance.peek.kind = .openBrace ∧
                    ∃ alternative,
                      (block nested).Reads later.advance.advance alternative after ∧
                        value =
                          .conditional before.current condition consequence (some alternative)
                else
                  value = .conditional before.current condition consequence none ∧
                    after = later := by
  simp [conditional, and_assoc]

theorem reads_function :
    (function nested).Reads before value after ↔
      before.peek.kind = .openParen ∧
        ∃ names middle, parameters.Reads before.advance names middle ∧
          middle.peek.kind = .openBrace ∧
            ∃ body, (block nested).Reads middle.advance body after ∧
              value = .function before.current names body := by
  simp [function, and_assoc]

theorem reads_array :
    (array nested).Reads before value after ↔
      ∃ elements, (items nested .closeBracket).Reads before elements after ∧
        value = .array before.current elements := by
  simp [array, and_assoc]

theorem reads_call {callee : Expr} :
    (call nested callee).Reads before value after ↔
      ∃ arguments, (items nested .closeParen).Reads before arguments after ∧
        value = .call before.current callee arguments := by
  simp [call, and_assoc]

theorem reads_hash :
    (hash nested).Reads before value after ↔
      ∃ pairs middle,
        Rule.Reads (Rule.many (notFollowedBy .closeBrace) (pair nested))
            before pairs middle ∧
          value = .hash before.current pairs ∧ after = middle.advance := by
  simp [hash, and_assoc]

theorem reads_parameters {names : List Token} :
    parameters.Reads before names after ↔
      if before.peek.kind = .closeParen then
        names = [] ∧ after = before.advance
      else
        before.peek.kind = .identifier ∧
          ∃ others middle,
            Reads
                (Rule.many (followedBy .comma) (Rule.advance >>= fun _ => Rule.expect .identifier))
                before.advance others middle ∧
              middle.peek.kind = .closeParen ∧ names = before.peek :: others ∧
                after = middle.advance := by
  simp [parameters, and_assoc]

theorem reads_nextName {name : Token} :
    Reads (Rule.advance >>= fun _ => Rule.expect .identifier) before name after ↔
      before.advance.peek.kind = .identifier ∧ name = before.advance.peek ∧
        after = before.advance.advance := by
  simp

theorem reads_items {closing : Kind} {values : List Expr} :
    (items nested closing).Reads before values after ↔
      if before.peek.kind = closing then
        values = [] ∧ after = before.advance
      else
        ∃ first later, (nested lowest).Reads before.advance first later ∧
          ∃ others middle,
            Reads (Rule.many (followedBy .comma)
                (Rule.advance >>= fun _ => Rule.advance >>= fun _ => nested lowest))
              later others middle ∧
              middle.peek.kind = closing ∧ values = first :: others ∧ after = middle.advance := by
  simp [items, and_assoc]

theorem reads_nextItem :
    Reads (Rule.advance >>= fun _ => Rule.advance >>= fun _ => nested lowest) before value after ↔
      (nested lowest).Reads before.advance.advance value after := by
  simp

theorem reads_pair {found : Expr × Expr} :
    (pair nested).Reads before found after ↔
      ∃ key middle, (nested lowest).Reads before.advance key middle ∧
        middle.peek.kind = .colon ∧
          ∃ value later, (nested lowest).Reads middle.advance.advance value later ∧
            if later.peek.kind = .closeBrace then found = (key, value) ∧ after = later
            else later.peek.kind = .comma ∧ found = (key, value) ∧ after = later.advance := by
  simp [pair, and_assoc]

theorem reads_operand :
    (operand nested).Reads before value after ↔
      match before.current.kind with
      | .identifier => value = .identifier before.current ∧ after = before
      | .integer => integer.Reads before value after
      | .string => value = .string before.current ∧ after = before
      | .trueWord | .falseWord => value = .boolean before.current ∧ after = before
      | .bang | .minus => (prefixed nested).Reads before value after
      | .openParen => (grouped nested).Reads before value after
      | .ifWord => (conditional nested).Reads before value after
      | .functionWord => (function nested).Reads before value after
      | .openBracket => (array nested).Reads before value after
      | .openBrace => (hash nested).Reads before value after
      | _ => False := by
  simp only [operand, Rule.reads_bind, Rule.reads_current, and_assoc, exists_and_left,
    exists_eq_left]
  cases before.current.kind <;> simp

theorem reads_extend {left : Expr} :
    (extend nested left).Reads before value after ↔
      ∃ rule, extension? nested left before.peek.kind = some rule ∧
        rule.Reads before.advance value after := by
  simp only [extend, Rule.reads_bind, Rule.reads_peek, and_assoc, exists_and_left,
    exists_eq_left]
  cases extension? nested left before.peek.kind <;> simp

theorem reads_expressionOver {precedence : Nat} :
    (expressionOver nested precedence).Reads before value after ↔
      ∃ left middle, (operand nested).Reads before left middle ∧
        (Rule.foldWhile (continues precedence) (extend nested) left).Reads middle value after := by
  simp [expressionOver]

theorem reads_expression {precedence : Nat} :
    (expression precedence).Reads before value after ↔
      (expressionOver (expressionBelow before.length) precedence).Reads before value after := by
  rw [Reads, expression_eq]
  rfl

theorem reads_expressionBelow {bound precedence : Nat} :
    (expressionBelow bound precedence).Reads before value after ↔
      before.length < bound ∧ (expression precedence).Reads before value after :=
  Rule.reads_guarded

theorem reads_statement {construct : Statement} :
    (statement nested).Reads before construct after ↔
      match before.current.kind with
      | .letWord => (binding nested).Reads before construct after
      | .returnWord => (returning nested).Reads before construct after
      | _ => (standing nested).Reads before construct after := by
  simp only [statement, Rule.reads_bind, Rule.reads_current, and_assoc, exists_and_left,
    exists_eq_left]
  cases before.current.kind <;> rfl

section Statements

variable {closing : Kind → Bool} {found : List Statement}

theorem reads_statements_of_closing (closed : closing before.current.kind = true) :
    (statements nested closing).Reads before found after ↔ found = [] ∧ after = before := by
  have stop : unclosed closing before = false := by simp [unclosed, closed]
  simp [statements, Rule.reads_many_of_not stop, and_assoc]

theorem reads_statements_of_not_closing (still : closing before.current.kind = false) :
    (statements nested closing).Reads before found after ↔
      ∃ first middle, (statement nested).Reads before first middle ∧
        middle.advance.length < before.length ∧
          ∃ others, found = first :: others ∧
            (statements nested closing).Reads middle.advance others after := by
  have go : unclosed closing before = true := by simp [unclosed, still]
  simp only [statements, Rule.reads_bind, Rule.reads_many_of go, Rule.reads_attempt,
    Rule.reads_advance, Rule.reads_pure]
  constructor
  · rintro ⟨_, _, ⟨_, _, ⟨_, _, ⟨first, rfl, read⟩, _, _, rfl, rfl, rfl⟩, shorter, others, rfl,
      read_others⟩, rfl, rfl⟩
    exact ⟨first, _, read, shorter, _, rfl, _, _, read_others, rfl, rfl⟩
  · rintro ⟨first, middle, read, shorter, _, rfl, others, _, read_others, rfl, rfl⟩
    exact ⟨_, _, ⟨_, _, ⟨_, _, ⟨first, rfl, read⟩, (), _, rfl, rfl, rfl⟩, shorter, others, rfl,
      read_others⟩, rfl, rfl⟩

/-- What a list of statements comes to is gathered statement by statement. -/
theorem statements_induction {motive : Stream → List Statement → Stream → Prop}
    (stop : ∀ stream, closing stream.current.kind = true → motive stream [] stream)
    (step : ∀ stream first middle others final, closing stream.current.kind = false →
      (statement nested).Reads stream first middle → motive middle.advance others final →
        motive stream (first :: others) final)
    (read : (statements nested closing).Reads before found after) :
    motive before found after := by
  induction h : before.length using Nat.strongRecOn generalizing before found with
  | ind length ih =>
      cases closed : closing before.current.kind with
      | true =>
          obtain ⟨rfl, rfl⟩ := (reads_statements_of_closing closed).mp read
          exact stop after closed
      | false =>
          obtain ⟨first, middle, read_first, shorter, others, rfl, read_others⟩ :=
            (reads_statements_of_not_closing closed).mp read
          exact step _ _ _ _ _ closed read_first (ih _ (h ▸ shorter) read_others rfl)

end Statements

end Grammar
end MarmosetLang
