import MarmosetLang.Proofs.Grammar.Constructs
import MarmosetLang.Proofs.Grammar.Spelling

/-!
# Clean readings are spellings

Whatever a rule reads without fault is spelled by the tokens that it has passed, all of them and in
their order.  A rule ends on the last token of its construct, so that what comes after the construct
is what is ahead once the stream has moved on by one token.  The same is true where a block is left
open by the end of the text, since there is nothing ahead then.
-/

namespace MarmosetLang
namespace Grammar

variable {nested : Nat → Rule Expr} {before after : Stream} {value : Expr}

theorem strength_peek_le {precedence : Nat} {stream : Stream}
    (stopped : continues precedence stream = false) (le : lowest ≤ precedence) :
    strength stream.peek.kind ≤ precedence := by
  by_cases semicolon : stream.peek.kind = .semicolon
  · rw [semicolon]
    exact le
  · simpa [continues, semicolon] using stopped

/-- A rule for nested expressions reads only what is spelled, and stops where the next token binds
no more tightly than asked for. -/
def ReadsSpelled (nested : Nat → Rule Expr) : Prop :=
  ∀ precedence before value after, (nested precedence).Reads before value after →
    Spelled (.expression (leastStrength precedence) value) before.tokens after.advance.tokens ∧
      continues precedence after = false

theorem ReadsSpelled.lowest (sound : ReadsSpelled nested)
    (read : (nested lowest).Reads before value after) :
    Spelled (.expression lowest value) before.tokens after.advance.tokens :=
  (sound _ _ _ _ read).1.mono (by decide)

/-! ## Lists of names, items and pairs -/

theorem spelled_of_otherNames {names : List Token}
    (read : Rule.Reads
      (Rule.many (followedBy .comma) (Rule.advance >>= fun _ => Rule.expect .identifier))
      before names after)
    (closed : after.peek.kind = .closeParen) :
    OtherNames names before.advance.tokens after.advance.advance.tokens := by
  revert closed
  refine Rule.Reads.many_induction
    (motive := fun before names after => after.peek.kind = .closeParen →
      OtherNames names before.advance.tokens after.advance.advance.tokens) ?_ ?_ read
  · intro stream _ closed
    rw [stream.tokens_advance_eq_of_kind closed nofun]
    exact .closer closed
  · intro stream name middle others final comma read_name spelled closed
    obtain ⟨named, rfl, rfl⟩ := reads_nextName.mp read_name
    have separated : stream.peek.kind = .comma := by simpa [followedBy] using comma
    rw [stream.tokens_advance_eq_of_kind separated nofun,
      stream.advance.tokens_advance_eq_of_kind named nofun]
    exact .cons separated named (spelled closed)

theorem spelled_of_parameters {names : List Token} (read : parameters.Reads before names after) :
    Names names before.advance.tokens after.advance.tokens := by
  rw [reads_parameters] at read
  split at read
  · rename_i closed
    obtain ⟨rfl, rfl⟩ := read
    rw [before.tokens_advance_eq_of_kind closed nofun]
    exact .closer closed
  · obtain ⟨named, others, middle, read_others, closed, rfl, rfl⟩ := read
    rw [before.tokens_advance_eq_of_kind named nofun]
    exact .cons named (spelled_of_otherNames read_others closed)

theorem spelled_of_otherItems {closing : Kind} {values : List Expr} (sound : ReadsSpelled nested)
    (ne_eof : closing ≠ .eof)
    (read : Rule.Reads (Rule.many (followedBy .comma)
      (Rule.advance >>= fun _ => Rule.advance >>= fun _ => nested lowest)) before values after)
    (closed : after.peek.kind = closing) :
    Spelled (.otherItems closing values) before.advance.tokens after.advance.advance.tokens := by
  revert closed
  refine Rule.Reads.many_induction
    (motive := fun before values after => after.peek.kind = closing →
      Spelled (.otherItems closing values) before.advance.tokens after.advance.advance.tokens)
    ?_ ?_ read
  · intro stream _ closed
    rw [stream.tokens_advance_eq_of_kind closed ne_eof]
    exact .noOtherItems closed
  · intro stream first middle others final comma read_first spelled closed
    have separated : stream.peek.kind = .comma := by simpa [followedBy] using comma
    rw [stream.tokens_advance_eq_of_kind separated nofun]
    exact .otherItems separated (sound.lowest (reads_nextItem.mp read_first)) (spelled closed)

theorem spelled_of_items {closing : Kind} {values : List Expr} (sound : ReadsSpelled nested)
    (ne_eof : closing ≠ .eof) (read : (items nested closing).Reads before values after) :
    Spelled (.items closing values) before.advance.tokens after.advance.tokens := by
  rw [reads_items] at read
  split at read
  · rename_i closed
    obtain ⟨rfl, rfl⟩ := read
    rw [before.tokens_advance_eq_of_kind closed ne_eof]
    exact .noItems closed
  · obtain ⟨first, later, read_first, others, middle, read_others, closed, rfl, rfl⟩ := read
    exact .items (sound.lowest read_first)
      (spelled_of_otherItems sound ne_eof read_others closed)

/-- A list of pairs ends before a closing brace.  No pair is read where the brace comes at once. -/
theorem spelled_of_pairs {pairs : List (Expr × Expr)} (sound : ReadsSpelled nested)
    (read : Rule.Reads (Rule.many (notFollowedBy .closeBrace) (pair nested)) before pairs after) :
    (before.peek.kind = .closeBrace → pairs = [] ∧ after = before) ∧
      Spelled (.pairs pairs) before.advance.tokens after.advance.advance.tokens := by
  refine Rule.Reads.many_induction
    (motive := fun before pairs after =>
      (before.peek.kind = .closeBrace → pairs = [] ∧ after = before) ∧
        Spelled (.pairs pairs) before.advance.tokens after.advance.advance.tokens) ?_ ?_ read
  · intro stream stop
    have closed : stream.peek.kind = .closeBrace := by
      simpa [notFollowedBy, followedBy] using stop
    refine ⟨fun _ => ⟨rfl, rfl⟩, ?_⟩
    rw [stream.tokens_advance_eq_of_kind closed nofun]
    exact .noPairs closed
  · rintro stream first middle others final go read_first ⟨ended, spelled⟩
    have unclosed : stream.peek.kind ≠ .closeBrace := by
      simpa [notFollowedBy, followedBy] using go
    refine ⟨fun closed => absurd closed unclosed, ?_⟩
    obtain ⟨key, afterKey, read_key, colon, value, afterValue, read_value, ending⟩ :=
      reads_pair.mp read_first
    have key_spelled := sound.lowest read_key
    have value_spelled := sound.lowest read_value
    rw [afterKey.tokens_advance_eq_of_kind colon nofun] at key_spelled
    split at ending
    · rename_i closed
      obtain ⟨rfl, rfl⟩ := ending
      obtain ⟨rfl, rfl⟩ := ended closed
      rw [final.tokens_advance_eq_of_kind closed nofun] at value_spelled
      exact .lastPair key_spelled colon value_spelled closed
    · obtain ⟨comma, rfl, rfl⟩ := ending
      rw [afterValue.tokens_advance_eq_of_kind comma nofun] at value_spelled
      exact .pairs key_spelled colon value_spelled comma spelled

/-! ## Statements and blocks -/

theorem spelled_of_passing (sound : ReadsSpelled nested)
    (read : (Rule.passing .semicolon (nested lowest)).Reads before value after) :
    ∃ rest, Spelled (.expression lowest value) before.tokens rest ∧
      Terminated rest after.advance.tokens := by
  obtain ⟨middle, read_value, rfl⟩ := Rule.reads_passing.mp read
  have stopped := (sound _ _ _ _ read_value).2
  refine ⟨_, sound.lowest read_value, ?_⟩
  split
  · rename_i semicolon
    rw [middle.tokens_advance_eq_of_kind semicolon nofun]
    exact .semicolon semicolon
  · refine .omitted ?_
    rw [← Stream.kind_peek, ← strength_eq_lowest_iff]
    exact Nat.le_antisymm (strength_peek_le stopped (Nat.le_refl _)) (lowest_le_strength _)

theorem spelled_of_statement {construct : Statement} (sound : ReadsSpelled nested)
    (read : (statement nested).Reads before construct after) :
    Spelled (.statement construct) before.tokens after.advance.tokens := by
  rw [reads_statement] at read
  split at read
  · rename_i kind
    obtain ⟨named, assigned, value, read_value, rfl⟩ := reads_binding.mp read
    obtain ⟨rest, spelled, terminated⟩ := spelled_of_passing sound read_value
    rw [before.tokens_eq_of_kind kind nofun, before.tokens_advance_eq_of_kind named nofun,
      before.advance.tokens_advance_eq_of_kind assigned nofun]
    exact .binding kind named assigned spelled terminated
  · rename_i kind
    obtain ⟨value, read_value, rfl⟩ := reads_returning.mp read
    obtain ⟨rest, spelled, terminated⟩ := spelled_of_passing sound read_value
    rw [before.tokens_eq_of_kind kind nofun]
    exact .returning kind spelled terminated
  · obtain ⟨value, read_value, rfl⟩ := reads_standing.mp read
    obtain ⟨rest, spelled, terminated⟩ := spelled_of_passing sound read_value
    have tokens_eq : before.tokens = before.current :: before.advance.tokens := by
      refine before.tokens_eq fun ended => ?_
      have length := spelled.length_after
      rw [Stream.tokens_eq_nil ended] at length
      exact absurd length (Nat.not_succ_le_zero _)
    rw [tokens_eq] at spelled ⊢
    exact .standing spelled terminated

theorem spelled_of_statements {closing : Kind → Bool} {found : List Statement}
    (sound : ReadsSpelled nested)
    (read : (statements nested closing).Reads before found after) :
    Spelled (.statements found) before.tokens after.tokens ∧ closing after.current.kind = true :=
  statements_induction
    (motive := fun before found after =>
      Spelled (.statements found) before.tokens after.tokens ∧ closing after.current.kind = true)
    (fun _ closed => ⟨.noStatements, closed⟩)
    (fun _ _ _ _ _ _ read_first spelled =>
      ⟨.statements (spelled_of_statement sound read_first) spelled.1, spelled.2⟩)
    read

/-- A block ends with a closing brace, or is left open where no token is ahead. -/
theorem spelled_of_block {body : Block} (sound : ReadsSpelled nested)
    (read : (block nested).Reads before body after) (kind : before.current.kind = .openBrace) :
    Spelled (.block body) before.tokens after.advance.tokens := by
  obtain ⟨found, read_found, rfl⟩ := reads_block.mp read
  obtain ⟨spelled, closing⟩ := spelled_of_statements sound read_found
  rw [before.tokens_eq_of_kind kind nofun]
  by_cases closed : after.current.kind = .closeBrace
  · rw [after.tokens_eq_of_kind closed nofun] at spelled
    exact .block kind spelled closed
  · have ended : after.current.kind = .eof := by simpa [closed] using closing
    rw [Stream.tokens_eq_nil ended] at spelled
    rw [after.tokens_advance, Stream.tokens_eq_nil ended]
    exact .openBlock kind spelled

/-! ## Expressions -/

theorem spelled_of_conditional (sound : ReadsSpelled nested)
    (kind : before.current.kind = .ifWord) (read : (conditional nested).Reads before value after) :
    value.strength = calleeStrength ∧
      Spelled (.bare value) before.tokens after.advance.tokens := by
  obtain ⟨opened, condition, middle, read_condition, closed, brace, consequence, later,
    read_consequence, read_rest⟩ := reads_conditional.mp read
  have condition_spelled := sound.lowest read_condition
  have consequence_spelled := spelled_of_block sound read_consequence brace
  rw [middle.tokens_advance_eq_of_kind closed nofun] at condition_spelled
  rw [before.tokens_eq_of_kind kind nofun, before.tokens_advance_eq_of_kind opened nofun]
  split at read_rest
  · rename_i otherwise
    obtain ⟨brace, alternative, read_alternative, rfl⟩ := read_rest
    rw [later.tokens_advance_eq_of_kind otherwise nofun] at consequence_spelled
    exact ⟨rfl, .alternative kind opened condition_spelled closed consequence_spelled otherwise
      (spelled_of_block sound read_alternative brace)⟩
  · obtain ⟨rfl, rfl⟩ := read_rest
    exact ⟨rfl, .conditional kind opened condition_spelled closed consequence_spelled⟩

theorem spelled_of_function (sound : ReadsSpelled nested)
    (kind : before.current.kind = .functionWord)
    (read : (function nested).Reads before value after) :
    value.strength = calleeStrength ∧
      Spelled (.bare value) before.tokens after.advance.tokens := by
  obtain ⟨opened, names, middle, read_names, brace, body, read_body, rfl⟩ :=
    reads_function.mp read
  rw [before.tokens_eq_of_kind kind nofun, before.tokens_advance_eq_of_kind opened nofun]
  exact ⟨rfl, .function kind opened (spelled_of_parameters read_names)
    (spelled_of_block sound read_body brace)⟩

/-- A leading operator binds as tightly as anything that may follow its operand. -/
theorem spelled_of_prefixed (sound : ReadsSpelled nested)
    (kind : before.current.kind = .bang ∨ before.current.kind = .minus)
    (read : (prefixed nested).Reads before value after) :
    Spelled (.expression (max operandStrength (strength after.peek.kind)) value) before.tokens
      after.advance.tokens := by
  obtain ⟨operand, read_operand, rfl⟩ := reads_prefixed.mp read
  obtain ⟨operand_spelled, stopped⟩ := sound _ _ _ _ read_operand
  have ne_eof : before.current.kind ≠ .eof := by
    rcases kind with kind | kind <;> rw [kind] <;> decide
  rw [before.tokens_eq ne_eof]
  refine .ungrouped ?_ (.prefixed kind operand_spelled)
  have lowest_le : lowest ≤ operandStrength := by decide
  exact Nat.max_le.mpr ⟨Nat.le_refl _, strength_peek_le stopped lowest_le⟩

/-- An operand of a single token. -/
theorem spelled_of_token {kind : Kind} (same : before.current.kind = kind) (ne_eof : kind ≠ .eof)
    (bare : Spelled (.bare value) (before.current :: before.advance.tokens)
      before.advance.tokens) :
    Spelled (.bare value) before.tokens before.advance.tokens := by
  rw [before.tokens_eq_of_kind same ne_eof]
  exact bare

theorem spelled_of_integer (kind : before.current.kind = .integer)
    (read : integer.Reads before value after) :
    value.strength = calleeStrength ∧
      Spelled (.bare value) before.tokens after.advance.tokens := by
  obtain ⟨short, small, rfl, rfl⟩ := reads_integer.mp read
  exact ⟨rfl, spelled_of_token kind nofun (.integer kind short small)⟩

theorem spelled_of_grouped {tight : Nat} (sound : ReadsSpelled nested)
    (kind : before.current.kind = .openParen) (read : (grouped nested).Reads before value after) :
    Spelled (.expression tight value) before.tokens after.advance.tokens := by
  obtain ⟨middle, read_inner, closed, rfl⟩ := reads_grouped.mp read
  have inner_spelled := sound.lowest read_inner
  rw [middle.tokens_advance_eq_of_kind closed nofun] at inner_spelled
  rw [before.tokens_eq_of_kind kind nofun]
  exact .grouped kind inner_spelled closed

theorem spelled_of_array (sound : ReadsSpelled nested) (kind : before.current.kind = .openBracket)
    (read : (array nested).Reads before value after) :
    value.strength = calleeStrength ∧
      Spelled (.bare value) before.tokens after.advance.tokens := by
  obtain ⟨elements, read_elements, rfl⟩ := reads_array.mp read
  rw [before.tokens_eq_of_kind kind nofun]
  exact ⟨rfl, .array kind (spelled_of_items sound nofun read_elements)⟩

theorem spelled_of_hash (sound : ReadsSpelled nested) (kind : before.current.kind = .openBrace)
    (read : (hash nested).Reads before value after) :
    value.strength = calleeStrength ∧
      Spelled (.bare value) before.tokens after.advance.tokens := by
  obtain ⟨pairs, middle, read_pairs, rfl, rfl⟩ := reads_hash.mp read
  rw [before.tokens_eq_of_kind kind nofun]
  exact ⟨rfl, .hash kind (spelled_of_pairs sound read_pairs).2⟩

/-- An operand is spelled in a way that fits both where it stands and the token after it. -/
theorem spelled_of_operand (sound : ReadsSpelled nested)
    (read : (operand nested).Reads before value after) :
    Spelled (.expression (max operandStrength (strength after.peek.kind)) value) before.tokens
      after.advance.tokens := by
  have le : max operandStrength (strength after.peek.kind) ≤ calleeStrength :=
    Nat.max_le.mpr ⟨by decide, strength_le _⟩
  have of_bare (spelled : value.strength = calleeStrength ∧
      Spelled (.bare value) before.tokens after.advance.tokens) :
      Spelled (.expression (max operandStrength (strength after.peek.kind)) value) before.tokens
        after.advance.tokens :=
    .ungrouped (spelled.1 ▸ le) spelled.2
  rw [reads_operand] at read
  split at read
  · rename_i kind
    obtain ⟨rfl, rfl⟩ := read
    exact of_bare ⟨rfl, spelled_of_token kind nofun (.identifier kind)⟩
  · rename_i kind
    exact of_bare (spelled_of_integer kind read)
  · rename_i kind
    obtain ⟨rfl, rfl⟩ := read
    exact of_bare ⟨rfl, spelled_of_token kind nofun (.string kind)⟩
  · rename_i kind
    obtain ⟨rfl, rfl⟩ := read
    exact of_bare ⟨rfl, spelled_of_token kind nofun (.boolean (.inl kind))⟩
  · rename_i kind
    obtain ⟨rfl, rfl⟩ := read
    exact of_bare ⟨rfl, spelled_of_token kind nofun (.boolean (.inr kind))⟩
  · rename_i kind
    exact spelled_of_prefixed sound (.inl kind) read
  · rename_i kind
    exact spelled_of_prefixed sound (.inr kind) read
  · rename_i kind
    exact spelled_of_grouped sound kind read
  · rename_i kind
    exact of_bare (spelled_of_conditional sound kind read)
  · rename_i kind
    exact of_bare (spelled_of_function sound kind read)
  · rename_i kind
    exact of_bare (spelled_of_array sound kind read)
  · rename_i kind
    exact of_bare (spelled_of_hash sound kind read)
  · exact read.elim

/-- Extending an expression keeps all of it as the first operand of the longer one, which again fits
both the precedence asked for and the token after it. -/
theorem spelled_of_extend {precedence : Nat} {left : Expr} {tokens : List Token}
    (sound : ReadsSpelled nested) (go : continues precedence before = true)
    (read : (extend nested left).Reads before value after)
    (left_spelled :
      Spelled (.expression (max (leastStrength precedence) (strength before.peek.kind)) left) tokens
        before.advance.tokens) :
    Spelled (.expression (max (leastStrength precedence) (strength after.peek.kind)) value) tokens
      after.advance.tokens := by
  obtain ⟨rule, extension, read_rule⟩ := reads_extend.mp read
  have tighter : precedence + 1 ≤ strength before.peek.kind := by
    simp only [continues, Bool.and_eq_true, decide_eq_true_eq] at go
    exact go.2
  have least_le : leastStrength precedence ≤ precedence + 1 := Nat.min_le_left _ _
  have le : max (leastStrength precedence) (strength after.peek.kind) ≤ calleeStrength :=
    Nat.max_le.mpr ⟨Nat.le_trans (leastStrength_le precedence) (by decide), strength_le _⟩
  have left_fits := left_spelled.mono (Nat.le_max_right _ (strength before.peek.kind))
  rcases extension?_eq_some extension with ⟨kind, rfl⟩ | ⟨kind, rfl⟩ | ⟨kind, rfl⟩
  · obtain ⟨right, read_right, rfl⟩ := reads_infixed.mp read_rule
    obtain ⟨right_spelled, stopped⟩ := sound _ _ _ _ read_right
    have ne_eof : before.peek.kind ≠ .eof := ne_of_mem_of_not_mem kind (by decide)
    rw [before.tokens_advance_eq_of_kind rfl ne_eof] at left_fits
    rw [Stream.current_advance, leastStrength_of_mem_infixes kind] at right_spelled
    refine .ungrouped ?_ (.infixed kind left_fits right_spelled)
    exact Nat.max_le.mpr ⟨Nat.le_trans least_le tighter,
      strength_peek_le stopped (lowest_le_strength _)⟩
  · obtain ⟨arguments, read_arguments, rfl⟩ := reads_call.mp read_rule
    rw [before.tokens_advance_eq_of_kind kind nofun, kind] at left_fits
    exact .ungrouped le (.call kind left_fits (spelled_of_items sound nofun read_arguments))
  · obtain ⟨position, middle, read_position, closed, rfl, rfl⟩ := reads_selection.mp read_rule
    have position_spelled := sound.lowest read_position
    rw [before.tokens_advance_eq_of_kind kind nofun, kind] at left_fits
    rw [middle.tokens_advance_eq_of_kind closed nofun] at position_spelled
    exact .ungrouped le (.index kind left_fits position_spelled closed)

theorem spelled_of_expressionOver {precedence : Nat} (sound : ReadsSpelled nested)
    (read : (expressionOver nested precedence).Reads before value after) :
    Spelled (.expression (leastStrength precedence) value) before.tokens after.advance.tokens ∧
      continues precedence after = false := by
  obtain ⟨left, middle, read_left, read_rest⟩ := reads_expressionOver.mp read
  have left_spelled := spelled_of_operand sound read_left
  obtain ⟨spelled, stopped⟩ := Rule.Reads.foldWhile_induction
    (motive := fun value stream =>
      Spelled (.expression (max (leastStrength precedence) (strength stream.peek.kind)) value)
        before.tokens stream.advance.tokens)
    (fun _ _ _ _ go read_next spelled => spelled_of_extend sound go read_next spelled)
    (left_spelled.mono (by have := leastStrength_le precedence; omega))
    read_rest
  exact ⟨spelled.mono (Nat.le_max_left _ _), stopped⟩

theorem readsSpelled_expressionBelow (bound : Nat) : ReadsSpelled (expressionBelow bound) := by
  induction bound using Nat.strongRecOn with
  | ind bound ih =>
      intro precedence before value after read
      obtain ⟨few, read⟩ := reads_expressionBelow.mp read
      exact spelled_of_expressionOver (ih _ few) (reads_expression.mp read)

theorem readsSpelled_expression : ReadsSpelled expression :=
  fun _ before _ _ read =>
    readsSpelled_expressionBelow (before.length + 1) _ _ _ _
      (reads_expressionBelow.mpr ⟨Nat.lt_succ_self _, read⟩)

theorem spelled_of_program {found : Program} (read : program.Reads before found after) :
    found.Spelled before.tokens := by
  simp only [program, Rule.reads_bind, Rule.reads_pure] at read
  obtain ⟨values, _, read, rfl, rfl⟩ := read
  obtain ⟨spelled, closing⟩ := spelled_of_statements readsSpelled_expression read
  have ended : after.current.kind = .eof := by simpa using closing
  rw [Stream.tokens_eq_nil ended] at spelled
  exact spelled

end Grammar
end MarmosetLang
