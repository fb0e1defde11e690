import MarmosetLang.Proofs.Grammar.Constructs
import MarmosetLang.Proofs.Grammar.Spelling

/-!
# Spellings are read

Whatever is spelled is read as it was meant.  The rule for expressions reads the first operand and
then extends it for as long as the tokens that follow bind tightly enough, so that the operands on
the left are read before the operations that they belong to.  What is kept along this way is that
the rule comes past each of them: whatever it reads from there on is what it reads.
-/

namespace MarmosetLang
namespace Grammar

variable {nested : Nat → Rule Expr} {before after : List Token} {value : Expr}
  {precedence : Nat} {stream : Stream}

/-! ## Nested expressions -/

/-- On streams of at most so many tokens, `nested` reads whatever `expression` does. -/
def Covers (nested : Nat → Rule Expr) (most : Nat) : Prop :=
  ∀ precedence before value after, before.length ≤ most →
    (expression precedence).Reads before value after →
      (nested precedence).Reads before value after

theorem covers_expression (most : Nat) : Covers expression most :=
  fun _ _ _ _ _ read => read

/-- Inside an expression the rule for nested ones covers what is shorter than the whole. -/
theorem covers_of_lt {inside : List Token} (ahead : stream.tokens = before)
    (lt : inside.length < before.length) :
    Covers (expressionBelow stream.length) inside.length := by
  intro precedence start value final few read
  rw [Stream.length, ahead]
  exact reads_expressionBelow.mpr ⟨Nat.lt_of_le_of_lt few lt, read⟩

theorem Covers.mono {most fewer : Nat} (covers : Covers nested most) (le : fewer ≤ most) :
    Covers nested fewer :=
  fun precedence before value after few =>
    covers precedence before value after (Nat.le_trans few le)

theorem Covers.reads {final : Stream} (covers : Covers nested before.length)
    (ahead : stream.tokens = before) (read : (expression precedence).Reads stream value final) :
    (nested precedence).Reads stream value final :=
  covers _ _ _ _ (Nat.le_of_eq (congrArg List.length ahead)) read

/-- The rule for expressions, started on a stream, comes past an expression with certain tokens
ahead: whatever it makes of the expression from there on is what it reads. -/
def Passes (precedence : Nat) (stream : Stream) (value : Expr) (after : List Token) : Prop :=
  ∃ middle, middle.advance.tokens = after ∧
    ∀ longer final,
      (Rule.foldWhile (continues precedence) (extend (expressionBelow stream.length)) value).Reads
          middle longer final →
        (expression precedence).Reads stream longer final

/-- The rule comes past the operand on which it is started. -/
theorem Passes.of_operand {final : Stream} (ahead : final.advance.tokens = after)
    (read : (operand (expressionBelow stream.length)).Reads stream value final) :
    Passes precedence stream value after :=
  ⟨final, ahead, fun _ _ rest =>
    reads_expression.mpr (reads_expressionOver.mpr ⟨value, final, read, rest⟩)⟩

/-- From one expression the rule comes to the longer one that the next tokens make of it. -/
theorem Passes.extended {left : Expr} {token : Token} {rest : List Token} {rule : Rule Expr}
    (passes : Passes precedence stream left (token :: rest))
    (extension : extension? (expressionBelow stream.length) left token.kind = some rule)
    (tighter : precedence < strength token.kind) (shorter : after.length ≤ rest.length)
    (read : ∀ start, start.tokens = token :: rest →
      ∃ final, final.advance.tokens = after ∧ rule.Reads start value final) :
    Passes precedence stream value after := by
  obtain ⟨middle, ahead, onwards⟩ := passes
  obtain ⟨final, ahead_final, read_value⟩ := read middle.advance ahead
  refine ⟨final, ahead_final, fun longer last rest_read => onwards longer last ?_⟩
  have peek_eq := Stream.peek_eq ahead
  have ne_semicolon : token.kind ≠ .semicolon := by
    intro same
    rw [same] at extension
    exact nomatch extension
  have go : continues precedence middle = true := by
    simp [continues, peek_eq, ne_semicolon, tighter]
  have read_next := reads_extend.mpr ⟨rule, peek_eq ▸ extension, read_value⟩
  have shorter_stream : final.length < middle.length := by
    refine Stream.length_lt_of_advance_lt ?_
    rw [Stream.length, Stream.length, ahead, ahead_final]
    exact Nat.lt_succ_of_le shorter
  exact (Rule.reads_foldWhile_of go).mpr ⟨value, final, read_next, shorter_stream, rest_read⟩

/-- The rule stops where the next token binds no more tightly than asked for. -/
theorem Passes.reads (passes : Passes precedence stream value after)
    (stops : strength (Token.nextKind after) ≤ precedence) :
    ∃ final, final.advance.tokens = after ∧ (expression precedence).Reads stream value final := by
  obtain ⟨middle, ahead, onwards⟩ := passes
  have stop : continues precedence middle = false := by
    rw [← ahead, ← Stream.kind_peek] at stops
    simp [continues, Nat.not_lt.mpr stops]
  exact ⟨middle, ahead, onwards _ _ ((Rule.reads_foldWhile_of_not stop).mpr ⟨rfl, rfl⟩)⟩

/-! ## What is kept -/

/-- The rule comes past an expression at every precedence at which it may stand bare, if the token
after it cannot be taken for a part of one of its operands. -/
def Readable (tight : Nat) (value : Expr) (before after : List Token) : Prop :=
  ∀ precedence stream, stream.tokens = before → precedence ≤ operandStrength →
    leastStrength precedence ≤ max (lowest + 1) tight →
      strength (Token.nextKind after) ≤ tight → Token.nextKind after ≠ .elseWord →
        Passes precedence stream value after

/-- What the rules read where a phrase is spelled. -/
def IsRead : Phrase → List Token → List Token → Prop
  | .bare value, before, after => Readable value.strength value before after
  | .expression tight value, before, after => Readable tight value before after
  | .items closing values, before, after =>
      closing = .closeParen ∨ closing = .closeBracket → ∀ nested stream,
        Covers nested before.length → stream.advance.tokens = before →
          ∃ final, final.advance.tokens = after ∧ (items nested closing).Reads stream values final
  | .otherItems closing values, before, after =>
      closing = .closeParen ∨ closing = .closeBracket → ∀ nested stream,
        Covers nested before.length → stream.advance.tokens = before →
          ∃ final, final.peek.kind = closing ∧ final.advance.advance.tokens = after ∧
            Rule.Reads (Rule.many (followedBy .comma)
                (Rule.advance >>= fun _ => Rule.advance >>= fun _ => nested lowest))
              stream values final
  | .pairs values, before, after =>
      ∀ nested stream, Covers nested before.length → stream.advance.tokens = before →
        ∃ final, final.advance.advance.tokens = after ∧
          Rule.Reads (Rule.many (notFollowedBy .closeBrace) (pair nested)) stream values final
  | .block body, before, after =>
      ∀ nested stream, Covers nested before.length → stream.tokens = before →
        ∃ final, final.advance.tokens = after ∧ (block nested).Reads stream body final
  | .statement value, before, after =>
      ∀ nested stream, Covers nested before.length → stream.tokens = before →
        Token.nextKind after ≠ .semicolon → Token.nextKind after ≠ .elseWord →
          ∃ final, final.advance.tokens = after ∧ (statement nested).Reads stream value final
  | .statements values, before, after =>
      ∀ nested closing stream, Covers nested before.length → stream.tokens = before →
        (∀ kind, closing kind = true → kind = .closeBrace ∨ kind = .eof) →
          closing (Token.nextKind after) = true →
            ∃ final, final.tokens = after ∧
              (statements nested closing).Reads stream values final

/-! ## Expressions -/

/-- An expression after which nothing belongs to it is read to its end. -/
theorem Readable.reads_lowest (readable : Readable lowest value before after)
    (covers : Covers nested before.length) (ahead : stream.tokens = before)
    (ends : Token.nextKind after ∉ .elseWord :: Kind.extensions) :
    ∃ final, final.advance.tokens = after ∧ (nested lowest).Reads stream value final := by
  obtain ⟨no_else, no_extension⟩ := List.ne_and_not_mem_of_not_mem_cons ends
  have stops : strength (Token.nextKind after) ≤ lowest :=
    Nat.le_of_eq ((strength_eq_lowest_iff _).mpr no_extension)
  have passes := readable lowest stream ahead (by decide) (by decide) stops no_else
  obtain ⟨final, ahead_final, read⟩ := passes.reads stops
  exact ⟨final, ahead_final, covers.reads ahead read⟩

/-- An operand is read wherever it stands. -/
theorem Readable.of_operand {tight : Nat}
    (read : ∀ stream, stream.tokens = before → strength (Token.nextKind after) ≤ tight →
      Token.nextKind after ≠ .elseWord →
        ∃ final, final.advance.tokens = after ∧
          (operand (expressionBelow stream.length)).Reads stream value final) :
    Readable tight value before after := by
  intro precedence stream ahead _ _ stops no_else
  obtain ⟨final, ahead_final, read_value⟩ := read stream ahead stops no_else
  exact Passes.of_operand ahead_final read_value

theorem Readable.ungrouped {tight : Nat} (le : tight ≤ value.strength)
    (above : lowest < value.strength) (bare : Readable value.strength value before after) :
    Readable tight value before after := by
  intro precedence stream ahead small fits stops no_else
  refine bare precedence stream ahead small (Nat.le_trans fits ?_) (Nat.le_trans stops le) no_else
  rw [Nat.max_eq_right above]
  exact Nat.max_le.mpr ⟨above, le⟩

theorem Readable.grouped {tight : Nat} {opener closer : Token} {middle : List Token}
    (opened : opener.kind = .openParen) (inside : Readable lowest value middle (closer :: after))
    (closed : closer.kind = .closeParen) : Readable tight value (opener :: middle) after := by
  refine .of_operand fun stream ahead _ _ => ?_
  have covers := covers_of_lt ahead (Nat.lt_succ_self middle.length)
  obtain ⟨final, ahead_final, read⟩ :=
    inside.reads_lowest covers (Stream.tokens_advance_eq ahead)
      (by rw [Token.nextKind_cons, closed]; decide)
  have peek_eq := Stream.peek_eq ahead_final
  refine ⟨final.advance, Stream.tokens_advance_eq ahead_final, ?_⟩
  simp only [reads_operand, Stream.current_eq ahead, opened]
  exact reads_grouped.mpr ⟨final, read, peek_eq ▸ closed, rfl⟩

theorem Readable.prefixed {operator : Token} {middle : List Token}
    (kind : operator.kind = .bang ∨ operator.kind = .minus)
    (operand_readable : Readable operandStrength value middle after) :
    Readable operandStrength (.prefixed operator value) (operator :: middle) after := by
  refine .of_operand fun stream ahead stops no_else => ?_
  have ahead_operand := Stream.tokens_advance_eq ahead
  have passes := operand_readable operandStrength stream.advance ahead_operand (Nat.le_refl _)
    (by decide) stops no_else
  obtain ⟨final, ahead_final, read⟩ := passes.reads stops
  have covers := covers_of_lt ahead (Nat.lt_succ_self middle.length)
  have read_operand := covers.reads ahead_operand read
  have current_eq := Stream.current_eq ahead
  have read_prefixed := reads_prefixed.mpr ⟨value, read_operand, rfl⟩
  rw [current_eq] at read_prefixed
  refine ⟨final, ahead_final, ?_⟩
  rcases kind with kind | kind
  · simpa only [reads_operand, current_eq, kind] using read_prefixed
  · simpa only [reads_operand, current_eq, kind] using read_prefixed

theorem Readable.infixed {operator : Token} {left right : Expr} {middle : List Token}
    (kind : operator.kind ∈ Kind.infixes)
    (left_readable : Readable (strength operator.kind) left before (operator :: middle))
    (right_readable : Readable (strength operator.kind + 1) right middle after)
    (fewer : middle.length < before.length) (shorter : after.length ≤ middle.length) :
    Readable (strength operator.kind) (.infixed operator left right) before after := by
  intro precedence stream ahead small fits stops no_else
  obtain ⟨above, below⟩ := strength_lt_of_mem_infixes kind
  have tighter : precedence < strength operator.kind := by
    simp only [leastStrength, lowest, operandStrength] at *
    omega
  have ne_else : operator.kind ≠ .elseWord := ne_of_mem_of_not_mem kind (by decide)
  have passes := left_readable precedence stream ahead small fits (Nat.le_refl _) ne_else
  refine passes.extended (extension?_of_mem_infixes kind) tighter shorter ?_
  intro start ahead_start
  have ahead_right := Stream.tokens_advance_eq ahead_start
  have right_passes := right_readable (strength operator.kind) start.advance ahead_right
    (Nat.le_of_lt below) ?_ (Nat.le_succ_of_le stops) no_else
  · obtain ⟨final, ahead_final, read⟩ := right_passes.reads stops
    have read_right := (covers_of_lt ahead fewer).reads ahead_right read
    rw [← Stream.current_eq ahead_start] at read_right ⊢
    exact ⟨final, ahead_final, reads_infixed.mpr ⟨right, read_right, rfl⟩⟩
  · rw [leastStrength_of_mem_infixes kind]
    exact Nat.le_max_right _ _

/-- Calls and selections extend an operand by brackets, whatever is asked for. -/
theorem Readable.bracketed {token : Token} {head : Expr} {middle : List Token}
    {rule : (Nat → Rule Expr) → Rule Expr}
    (kind : token.kind = .openParen ∨ token.kind = .openBracket)
    (extension : ∀ nested, extension? nested head token.kind = some (rule nested))
    (head_readable : Readable calleeStrength head before (token :: middle))
    (fewer : middle.length < before.length) (shorter : after.length ≤ middle.length)
    (read : ∀ nested start, Covers nested middle.length → start.tokens = token :: middle →
      ∃ final, final.advance.tokens = after ∧ (rule nested).Reads start value final) :
    Readable calleeStrength value before after := by
  intro precedence stream ahead small fits _ _
  have strength_eq : strength token.kind = calleeStrength := by
    rcases kind with kind | kind <;> rw [kind] <;> rfl
  have ne_else : token.kind ≠ .elseWord := by
    rcases kind with kind | kind <;> rw [kind] <;> decide
  have tighter : precedence < strength token.kind := strength_eq ▸ Nat.lt_succ_of_le small
  have passes := head_readable precedence stream ahead small fits (Nat.le_of_eq strength_eq) ne_else
  refine passes.extended (extension _) tighter shorter ?_
  intro start ahead_start
  exact read _ start (covers_of_lt ahead fewer) ahead_start

theorem Readable.call {token : Token} {callee : Expr} {arguments : List Expr}
    {middle : List Token} (kind : token.kind = .openParen)
    (callee_readable : Readable calleeStrength callee before (token :: middle))
    (arguments_read : IsRead (.items .closeParen arguments) middle after)
    (fewer : middle.length < before.length) (shorter : after.length ≤ middle.length) :
    Readable calleeStrength (.call token callee arguments) before after := by
  have extension (nested : Nat → Rule Expr) :
      extension? nested callee token.kind = some (Grammar.call nested callee) := by
    rw [kind]
    rfl
  refine .bracketed (.inl kind) extension callee_readable fewer shorter ?_
  intro nested start covers ahead
  obtain ⟨final, ahead_final, read⟩ := arguments_read (.inl rfl) nested start covers
    (Stream.tokens_advance_eq ahead)
  rw [← Stream.current_eq ahead]
  exact ⟨final, ahead_final, reads_call.mpr ⟨arguments, read, rfl⟩⟩

theorem Readable.index {token closer : Token} {container position : Expr}
    {middle : List Token} (kind : token.kind = .openBracket)
    (container_readable : Readable calleeStrength container before (token :: middle))
    (position_readable : Readable lowest position middle (closer :: after))
    (closed : closer.kind = .closeBracket) (fewer : middle.length < before.length)
    (shorter : after.length ≤ middle.length) :
    Readable calleeStrength (.index token container position) before after := by
  have extension (nested : Nat → Rule Expr) :
      extension? nested container token.kind = some (selection nested container) := by
    rw [kind]
    rfl
  refine .bracketed (.inr kind) extension container_readable fewer shorter ?_
  intro nested start covers ahead
  obtain ⟨final, ahead_final, read⟩ := position_readable.reads_lowest covers
    (Stream.tokens_advance_eq ahead) (by rw [Token.nextKind_cons, closed]; decide)
  rw [← Stream.current_eq ahead]
  exact ⟨final.advance, Stream.tokens_advance_eq ahead_final,
    reads_selection.mpr ⟨position, final, read, Stream.peek_eq ahead_final ▸ closed, rfl, rfl⟩⟩

theorem Readable.array {tight : Nat} {token : Token} {elements : List Expr} {middle : List Token}
    (kind : token.kind = .openBracket)
    (inside : IsRead (.items .closeBracket elements) middle after) :
    Readable tight (.array token elements) (token :: middle) after := by
  refine .of_operand fun stream ahead _ _ => ?_
  obtain ⟨final, ahead_final, read⟩ := inside (.inr rfl) _ stream
    (covers_of_lt ahead (Nat.lt_succ_self middle.length)) (Stream.tokens_advance_eq ahead)
  refine ⟨final, ahead_final, ?_⟩
  simp only [reads_operand, Stream.current_eq ahead, kind]
  exact reads_array.mpr ⟨elements, read, by rw [Stream.current_eq ahead]⟩

theorem Readable.hash {tight : Nat} {token : Token} {pairs : List (Expr × Expr)}
    {middle : List Token} (kind : token.kind = .openBrace)
    (inside : IsRead (.pairs pairs) middle after) :
    Readable tight (.hash token pairs) (token :: middle) after := by
  refine .of_operand fun stream ahead _ _ => ?_
  obtain ⟨final, ahead_final, read⟩ := inside _ stream
    (covers_of_lt ahead (Nat.lt_succ_self middle.length)) (Stream.tokens_advance_eq ahead)
  refine ⟨final.advance, ahead_final, ?_⟩
  simp only [reads_operand, Stream.current_eq ahead, kind]
  exact reads_hash.mpr ⟨pairs, final, read, by rw [Stream.current_eq ahead], rfl⟩

/-- The part of a choice up to the end of its first block. -/
theorem reads_of_condition {opener closer : Token} {condition : Expr} {consequence : Block}
    {first second third : List Token} (opened : opener.kind = .openParen)
    (condition_readable : Readable lowest condition first (closer :: second))
    (closed : closer.kind = .closeParen)
    (begins : Token.nextKind second = .openBrace)
    (consequence_read : IsRead (.block consequence) second third)
    (shorter : second.length ≤ first.length) (covers : Covers nested first.length)
    (ahead : stream.advance.tokens = opener :: first) :
    stream.peek.kind = .openParen ∧
      ∃ middle, (nested lowest).Reads stream.advance.advance condition middle ∧
        middle.peek.kind = .closeParen ∧ middle.advance.peek.kind = .openBrace ∧
          ∃ later, (block nested).Reads middle.advance.advance consequence later ∧
            later.advance.tokens = third := by
  obtain ⟨middle, ahead_middle, read_condition⟩ := condition_readable.reads_lowest covers
    (Stream.tokens_advance_eq ahead) (by rw [Token.nextKind_cons, closed]; decide)
  have ahead_block := Stream.tokens_advance_eq ahead_middle
  obtain ⟨later, ahead_later, read_consequence⟩ :=
    consequence_read nested middle.advance.advance (covers.mono shorter) ahead_block
  have brace : middle.advance.peek.kind = .openBrace := by
    rw [Stream.kind_peek, ahead_block, begins]
  exact ⟨Stream.peek_eq ahead ▸ opened, middle, read_condition,
    Stream.peek_eq ahead_middle ▸ closed, brace, later, read_consequence, ahead_later⟩

theorem Readable.conditional {tight : Nat} {token opener closer : Token} {condition : Expr}
    {consequence : Block} {first second : List Token} (kind : token.kind = .ifWord)
    (opened : opener.kind = .openParen)
    (condition_readable : Readable lowest condition first (closer :: second))
    (closed : closer.kind = .closeParen) (begins : Token.nextKind second = .openBrace)
    (consequence_read : IsRead (.block consequence) second after)
    (shorter : second.length ≤ first.length) :
    Readable tight (.conditional token condition consequence none) (token :: opener :: first)
      after := by
  refine .of_operand fun stream ahead _ no_else => ?_
  have covers : Covers (expressionBelow stream.length) first.length :=
    covers_of_lt ahead (Nat.lt_succ_of_lt (Nat.lt_succ_self _))
  obtain ⟨opens, middle, read_condition, closes, brace, later, read_consequence, ahead_later⟩ :=
    reads_of_condition opened condition_readable closed begins consequence_read shorter covers
      (Stream.tokens_advance_eq ahead)
  refine ⟨later, ahead_later, ?_⟩
  simp only [reads_operand, Stream.current_eq ahead, kind]
  refine reads_conditional.mpr ⟨opens, condition, middle, read_condition, closes, brace,
    consequence, later, read_consequence, ?_⟩
  rw [if_neg (by rw [Stream.kind_peek, ahead_later]; exact no_else), Stream.current_eq ahead]
  exact ⟨rfl, rfl⟩

theorem Readable.alternative {tight : Nat} {token opener closer other : Token} {condition : Expr}
    {consequence alternative : Block} {first second third : List Token}
    (kind : token.kind = .ifWord) (opened : opener.kind = .openParen)
    (condition_readable : Readable lowest condition first (closer :: second))
    (closed : closer.kind = .closeParen) (begins : Token.nextKind second = .openBrace)
    (consequence_read : IsRead (.block consequence) second (other :: third))
    (otherwise : other.kind = .elseWord) (begins_other : Token.nextKind third = .openBrace)
    (alternative_read : IsRead (.block alternative) third after)
    (shorter : second.length ≤ first.length) (shorter_other : third.length ≤ first.length) :
    Readable tight (.conditional token condition consequence (some alternative))
      (token :: opener :: first) after := by
  refine .of_operand fun stream ahead _ _ => ?_
  have covers : Covers (expressionBelow stream.length) first.length :=
    covers_of_lt ahead (Nat.lt_succ_of_lt (Nat.lt_succ_self _))
  obtain ⟨opens, middle, read_condition, closes, brace, later, read_consequence, ahead_later⟩ :=
    reads_of_condition opened condition_readable closed begins consequence_read shorter covers
      (Stream.tokens_advance_eq ahead)
  have ahead_other := Stream.tokens_advance_eq ahead_later
  obtain ⟨final, ahead_final, read_alternative⟩ := alternative_read _ later.advance.advance
    (covers.mono shorter_other) ahead_other
  have brace_other : later.advance.peek.kind = .openBrace := by
    rw [Stream.kind_peek, ahead_other, begins_other]
  refine ⟨final, ahead_final, ?_⟩
  simp only [reads_operand, Stream.current_eq ahead, kind]
  refine reads_conditional.mpr ⟨opens, condition, middle, read_condition, closes, brace,
    consequence, later, read_consequence, ?_⟩
  rw [if_pos (Stream.peek_eq ahead_later ▸ otherwise), Stream.current_eq ahead]
  exact ⟨brace_other, alternative, read_alternative, rfl⟩

theorem reads_of_otherNames {names : List Token} (spelled : OtherNames names before after)
    (ahead : stream.advance.tokens = before) :
    ∃ final, final.peek.kind = .closeParen ∧ final.advance.advance.tokens = after ∧
      Rule.Reads
        (Rule.many (followedBy .comma) (Rule.advance >>= fun _ => Rule.expect .identifier))
        stream names final := by
  induction spelled generalizing stream with
  | closer kind =>
      have closed := Stream.peek_eq ahead ▸ kind
      have stop : followedBy .comma stream = false := by simp [followedBy, closed]
      exact ⟨stream, closed, Stream.tokens_advance_eq ahead,
        (Rule.reads_many_of_not stop).mpr ⟨rfl, rfl⟩⟩
  | cons separated named _ ih =>
      have go : followedBy .comma stream = true := by
        simp [followedBy, Stream.peek_eq ahead, separated]
      have ahead_name := Stream.tokens_advance_eq ahead
      have peek_eq := Stream.peek_eq ahead_name
      have ahead_others := Stream.tokens_advance_eq ahead_name
      obtain ⟨final, closed, ahead_final, read⟩ := ih ahead_others
      refine ⟨final, closed, ahead_final, (Rule.reads_many_of go).mpr
        ⟨_, _, reads_nextName.mpr ⟨peek_eq ▸ named, peek_eq.symm, rfl⟩, ?_, _, rfl, read⟩⟩
      refine Stream.length_lt_of_advance_lt ?_
      rw [Stream.length, Stream.length, ahead, ahead_others]
      exact Nat.lt_succ_of_lt (Nat.lt_succ_self _)

theorem reads_of_names {names : List Token} (spelled : Names names before after)
    (ahead : stream.advance.tokens = before) :
    ∃ final, final.advance.tokens = after ∧ parameters.Reads stream names final := by
  cases spelled with
  | closer kind =>
      refine ⟨stream.advance, Stream.tokens_advance_eq ahead, reads_parameters.mpr ?_⟩
      rw [if_pos (Stream.peek_eq ahead ▸ kind)]
      exact ⟨rfl, rfl⟩
  | cons named others =>
      obtain ⟨middle, closed, ahead_middle, read⟩ :=
        reads_of_otherNames others (Stream.tokens_advance_eq ahead)
      refine ⟨middle.advance, ahead_middle, reads_parameters.mpr ?_⟩
      rw [Stream.peek_eq ahead, if_neg (by rw [named]; decide)]
      exact ⟨named, _, middle, read, closed, rfl, rfl⟩

theorem Readable.function {tight : Nat} {token opener : Token} {names : List Token} {body : Block}
    {first second : List Token} (kind : token.kind = .functionWord)
    (opened : opener.kind = .openParen) (names_spelled : Names names first second)
    (begins : Token.nextKind second = .openBrace) (body_read : IsRead (.block body) second after) :
    Readable tight (.function token names body) (token :: opener :: first) after := by
  refine .of_operand fun stream ahead _ _ => ?_
  have ahead_opener := Stream.tokens_advance_eq ahead
  obtain ⟨middle, ahead_middle, read_names⟩ :=
    reads_of_names names_spelled (Stream.tokens_advance_eq ahead_opener)
  have covers : Covers (expressionBelow stream.length) second.length :=
    covers_of_lt ahead (Nat.lt_succ_of_lt (Nat.lt_succ_of_lt names_spelled.length_after))
  obtain ⟨final, ahead_final, read_body⟩ := body_read _ middle.advance covers ahead_middle
  have brace : middle.peek.kind = .openBrace := by rw [Stream.kind_peek, ahead_middle, begins]
  refine ⟨final, ahead_final, ?_⟩
  simp only [reads_operand, Stream.current_eq ahead, kind]
  refine reads_function.mpr ⟨Stream.peek_eq ahead_opener ▸ opened, names, middle, read_names, brace,
    body, read_body, ?_⟩
  rw [Stream.current_eq ahead]

/-! ## Items, pairs and statements -/

theorem isRead_noItems {closing : Kind} {closer : Token} (closed : closer.kind = closing) :
    IsRead (.items closing []) (closer :: after) after := by
  intro _ nested stream _ ahead
  refine ⟨stream.advance, Stream.tokens_advance_eq ahead, reads_items.mpr ?_⟩
  rw [if_pos (Stream.peek_eq ahead ▸ closed)]
  exact ⟨rfl, rfl⟩

/-- After an item comes a comma or the closing token, neither of which extends it. -/
theorem ends_of_otherItems {closing kind : Kind}
    (closers : closing = .closeParen ∨ closing = .closeBracket)
    (begins : kind = .comma ∨ kind = closing) : kind ∉ .elseWord :: Kind.extensions := by
  rcases begins with rfl | rfl
  · decide
  · rcases closers with rfl | rfl <;> decide

theorem isRead_items {closing : Kind} {first : Expr} {others : List Expr} {middle : List Token}
    (begins : Token.nextKind before ∈ Kind.beginnings)
    (first_readable : Readable lowest first before middle)
    (begins_others : Token.nextKind middle = .comma ∨ Token.nextKind middle = closing)
    (others_read : IsRead (.otherItems closing others) middle after)
    (shorter : middle.length ≤ before.length) :
    IsRead (.items closing (first :: others)) before after := by
  intro closers nested stream covers ahead
  obtain ⟨later, ahead_later, read_first⟩ :=
    first_readable.reads_lowest covers ahead (ends_of_otherItems closers begins_others)
  obtain ⟨final, closed, ahead_final, read_others⟩ :=
    others_read closers nested later (covers.mono shorter) ahead_later
  refine ⟨final.advance, ahead_final, reads_items.mpr ?_⟩
  have unclosed : stream.peek.kind ≠ closing := by
    rw [Stream.kind_peek, ahead]
    rcases closers with rfl | rfl
    · exact ne_of_mem_of_not_mem begins (by decide)
    · exact ne_of_mem_of_not_mem begins (by decide)
  rw [if_neg unclosed]
  exact ⟨first, later, read_first, others, final, read_others, closed, rfl, rfl⟩

theorem isRead_noOtherItems {closing : Kind} {closer : Token} (closed : closer.kind = closing) :
    IsRead (.otherItems closing []) (closer :: after) after := by
  intro closers nested stream _ ahead
  have peek_kind := Stream.peek_eq ahead ▸ closed
  have stop : followedBy .comma stream = false := by
    rcases closers with rfl | rfl <;> simp [followedBy, peek_kind]
  exact ⟨stream, peek_kind, Stream.tokens_advance_eq ahead,
    (Rule.reads_many_of_not stop).mpr ⟨rfl, rfl⟩⟩

theorem isRead_otherItems {closing : Kind} {comma : Token} {first : Expr} {others : List Expr}
    {middle : List Token} (separated : comma.kind = .comma)
    (first_readable : Readable lowest first before middle)
    (begins_others : Token.nextKind middle = .comma ∨ Token.nextKind middle = closing)
    (others_read : IsRead (.otherItems closing others) middle after)
    (shorter : middle.length ≤ before.length) :
    IsRead (.otherItems closing (first :: others)) (comma :: before) after := by
  intro closers nested stream covers ahead
  have covers_first := covers.mono (Nat.le_succ before.length)
  obtain ⟨later, ahead_later, read_first⟩ := first_readable.reads_lowest covers_first
    (Stream.tokens_advance_eq ahead) (ends_of_otherItems closers begins_others)
  obtain ⟨final, closed, ahead_final, read_others⟩ :=
    others_read closers nested later (covers_first.mono shorter) ahead_later
  have go : followedBy .comma stream = true := by
    simp [followedBy, Stream.peek_eq ahead, separated]
  refine ⟨final, closed, ahead_final, (Rule.reads_many_of go).mpr
    ⟨first, later, reads_nextItem.mpr read_first, ?_, others, rfl, read_others⟩⟩
  refine Stream.length_lt_of_advance_lt ?_
  rw [Stream.length, Stream.length, ahead, ahead_later]
  exact Nat.lt_succ_of_le shorter

theorem isRead_noPairs {closer : Token} (closed : closer.kind = .closeBrace) :
    IsRead (.pairs []) (closer :: after) after := by
  intro nested stream _ ahead
  have stop : notFollowedBy .closeBrace stream = false := by
    simp [notFollowedBy, followedBy, Stream.peek_eq ahead, closed]
  exact ⟨stream, Stream.tokens_advance_eq ahead, (Rule.reads_many_of_not stop).mpr ⟨rfl, rfl⟩⟩

/-- After a pair comes the closing brace, which does not belong to it, or a comma, which does. -/
theorem isRead_pairs {colon : Token} {key value : Expr} {others : List (Expr × Expr)}
    {middle rest later : List Token} (begins : Token.nextKind before ∈ Kind.beginnings)
    (key_readable : Readable lowest key before (colon :: middle)) (separated : colon.kind = .colon)
    (value_readable : Readable lowest value middle rest)
    (continued : (Token.nextKind rest = .closeBrace ∧ rest = later) ∨
      ∃ comma, comma.kind = .comma ∧ rest = comma :: later)
    (others_read : IsRead (.pairs others) later after)
    (shorter : middle.length ≤ before.length) (shorter_later : later.length < before.length) :
    IsRead (.pairs ((key, value) :: others)) before after := by
  intro nested stream covers ahead
  have go : notFollowedBy .closeBrace stream = true := by
    have unclosed : stream.peek.kind ≠ .closeBrace := by
      rw [Stream.kind_peek, ahead]
      exact ne_of_mem_of_not_mem begins (by decide)
    simp [notFollowedBy, followedBy, unclosed]
  have rest_ends : Token.nextKind rest ∉ .elseWord :: Kind.extensions := by
    rcases continued with ⟨closed, _⟩ | ⟨comma, kind, rfl⟩
    · rw [closed]
      decide
    · rw [Token.nextKind_cons, kind]
      decide
  obtain ⟨afterKey, ahead_key, read_key⟩ := key_readable.reads_lowest covers ahead
    (by rw [Token.nextKind_cons, separated]; decide)
  obtain ⟨afterValue, ahead_value, read_value⟩ := value_readable.reads_lowest (covers.mono shorter)
    (Stream.tokens_advance_eq ahead_key) rest_ends
  obtain ⟨next, ahead_next, read_pair⟩ : ∃ next, next.advance.tokens = later ∧
      (pair nested).Reads stream (key, value) next := by
    have colon_peek := Stream.peek_eq ahead_key ▸ separated
    rcases continued with ⟨closed, rfl⟩ | ⟨comma, kind, rfl⟩
    · refine ⟨afterValue, ahead_value, reads_pair.mpr
        ⟨key, afterKey, read_key, colon_peek, value, afterValue, read_value, ?_⟩⟩
      rw [if_pos (by rw [Stream.kind_peek, ahead_value, closed])]
      exact ⟨rfl, rfl⟩
    · refine ⟨afterValue.advance, Stream.tokens_advance_eq ahead_value, reads_pair.mpr
        ⟨key, afterKey, read_key, colon_peek, value, afterValue, read_value, ?_⟩⟩
      rw [Stream.peek_eq ahead_value, if_neg (by rw [kind]; decide)]
      exact ⟨kind, rfl, rfl⟩
  obtain ⟨final, ahead_final, read_others⟩ :=
    others_read nested next (covers.mono (Nat.le_of_lt shorter_later)) ahead_next
  refine ⟨final, ahead_final, (Rule.reads_many_of go).mpr
    ⟨(key, value), next, read_pair, ?_, others, rfl, read_others⟩⟩
  refine Stream.length_lt_of_advance_lt ?_
  rwa [Stream.length, Stream.length, ahead, ahead_next]

/-- A semicolon after an expression is passed, whatever comes next. -/
theorem reads_of_semicolon {token : Token}
    (readable : Readable lowest value before (token :: after)) (kind : token.kind = .semicolon)
    (covers : Covers nested before.length)
    (ahead : stream.tokens = before) :
    ∃ final, final.advance.tokens = after ∧
      (Rule.passing .semicolon (nested lowest)).Reads stream value final := by
  obtain ⟨middle, ahead_middle, read⟩ :=
    readable.reads_lowest covers ahead (by rw [Token.nextKind_cons, kind]; decide)
  refine ⟨middle.advance, Stream.tokens_advance_eq ahead_middle,
    Rule.reads_passing.mpr ⟨middle, read, ?_⟩⟩
  rw [if_pos (Stream.peek_eq ahead_middle ▸ kind)]

/-- A semicolon after an expression is passed, and nothing else is. -/
theorem reads_of_terminated {rest : List Token} (readable : Readable lowest value before rest)
    (terminated : Terminated rest after) (no_semicolon : Token.nextKind after ≠ .semicolon)
    (no_else : Token.nextKind after ≠ .elseWord) (covers : Covers nested before.length)
    (ahead : stream.tokens = before) :
    ∃ final, final.advance.tokens = after ∧
      (Rule.passing .semicolon (nested lowest)).Reads stream value final := by
  cases terminated with
  | semicolon kind => exact reads_of_semicolon readable kind covers ahead
  | omitted next =>
      obtain ⟨middle, ahead_middle, read⟩ := readable.reads_lowest covers ahead
        (List.not_mem_cons_of_ne_of_not_mem no_else next)
      refine ⟨middle, ahead_middle, Rule.reads_passing.mpr ⟨middle, read, ?_⟩⟩
      rw [if_neg (by rwa [Stream.kind_peek, ahead_middle])]

section Statement

variable {token : Token} {middle rest : List Token} {final : Stream}

theorem reads_statement_binding {name assign : Token} (kind : token.kind = .letWord)
    (named : name.kind = .identifier) (assigned : assign.kind = .assign)
    (ahead : stream.tokens = token :: name :: assign :: middle)
    (read : (Rule.passing .semicolon (nested lowest)).Reads stream.advance.advance.advance value
      final) :
    (statement nested).Reads stream (.binding token name value) final := by
  have ahead_name := Stream.tokens_advance_eq ahead
  have ahead_assign := Stream.tokens_advance_eq ahead_name
  simp only [reads_statement, Stream.current_eq ahead, kind]
  refine reads_binding.mpr ⟨Stream.peek_eq ahead_name ▸ named,
    Stream.peek_eq ahead_assign ▸ assigned, value, read, ?_⟩
  rw [Stream.current_eq ahead, Stream.peek_eq ahead_name]

theorem reads_statement_returning (kind : token.kind = .returnWord)
    (ahead : stream.tokens = token :: middle)
    (read : (Rule.passing .semicolon (nested lowest)).Reads stream.advance value final) :
    (statement nested).Reads stream (.returning token value) final := by
  simp only [reads_statement, Stream.current_eq ahead, kind]
  exact reads_returning.mpr ⟨value, read, by rw [Stream.current_eq ahead]⟩

theorem reads_statement_standing (begins : token.kind ∈ Kind.beginnings)
    (ahead : stream.tokens = token :: middle)
    (read : (Rule.passing .semicolon (nested lowest)).Reads stream value final) :
    (statement nested).Reads stream (.expression token value) final := by
  have read_standing := reads_standing.mpr ⟨value, read, rfl⟩
  rw [Stream.current_eq ahead] at read_standing
  rw [reads_statement, Stream.current_eq ahead]
  split
  · rename_i kind
    exact absurd kind (ne_of_mem_of_not_mem begins (by decide))
  · rename_i kind
    exact absurd kind (ne_of_mem_of_not_mem begins (by decide))
  · exact read_standing

theorem isRead_binding {name assign : Token} (kind : token.kind = .letWord)
    (named : name.kind = .identifier) (assigned : assign.kind = .assign)
    (value_readable : Readable lowest value middle rest) (terminated : Terminated rest after) :
    IsRead (.statement (.binding token name value)) (token :: name :: assign :: middle) after := by
  intro nested stream covers ahead no_semicolon no_else
  have fewer : middle.length ≤ (token :: name :: assign :: middle).length :=
    Nat.le_add_right _ 3
  have ahead_assign := Stream.tokens_advance_eq (Stream.tokens_advance_eq ahead)
  obtain ⟨final, ahead_final, read⟩ := reads_of_terminated value_readable terminated no_semicolon
    no_else (covers.mono fewer) (Stream.tokens_advance_eq ahead_assign)
  exact ⟨final, ahead_final, reads_statement_binding kind named assigned ahead read⟩

theorem isRead_returning (kind : token.kind = .returnWord)
    (value_readable : Readable lowest value middle rest) (terminated : Terminated rest after) :
    IsRead (.statement (.returning token value)) (token :: middle) after := by
  intro nested stream covers ahead no_semicolon no_else
  obtain ⟨final, ahead_final, read⟩ := reads_of_terminated value_readable terminated no_semicolon
    no_else (covers.mono (Nat.le_succ middle.length)) (Stream.tokens_advance_eq ahead)
  exact ⟨final, ahead_final, reads_statement_returning kind ahead read⟩

theorem isRead_standing (begins : token.kind ∈ Kind.beginnings)
    (value_readable : Readable lowest value (token :: middle) rest)
    (terminated : Terminated rest after) :
    IsRead (.statement (.expression token value)) (token :: middle) after := by
  intro nested stream covers ahead no_semicolon no_else
  obtain ⟨final, ahead_final, read⟩ := reads_of_terminated value_readable terminated no_semicolon
    no_else covers ahead
  exact ⟨final, ahead_final, reads_statement_standing begins ahead read⟩

end Statement

theorem isRead_block {token closer : Token} {body : List Statement} {middle : List Token}
    (inside : IsRead (.statements body) middle (closer :: after))
    (closed : closer.kind = .closeBrace) :
    IsRead (.block (.mk token body)) (token :: middle) after := by
  intro nested stream covers ahead
  obtain ⟨final, ahead_final, read⟩ := inside nested
    (fun kind => kind = .closeBrace || kind = .eof) stream.advance
    (covers.mono (Nat.le_succ middle.length)) (Stream.tokens_advance_eq ahead)
    (by simp) (by simp [closed])
  exact ⟨final, Stream.tokens_advance_eq ahead_final,
    reads_block.mpr ⟨body, read, by rw [Stream.current_eq ahead]⟩⟩

theorem isRead_openBlock {token : Token} {body : List Statement} {middle : List Token}
    (inside : IsRead (.statements body) middle []) :
    IsRead (.block (.mk token body)) (token :: middle) [] := by
  intro nested stream covers ahead
  obtain ⟨final, ahead_final, read⟩ := inside nested
    (fun kind => kind = .closeBrace || kind = .eof) stream.advance
    (covers.mono (Nat.le_succ middle.length)) (Stream.tokens_advance_eq ahead)
    (by simp) (by simp)
  refine ⟨final, ?_, reads_block.mpr ⟨body, read, by rw [Stream.current_eq ahead]⟩⟩
  rw [Stream.tokens_advance, ahead_final, List.tail_nil]

theorem isRead_noStatements : IsRead (.statements []) after after := by
  intro nested closing stream _ ahead _ closes
  refine ⟨stream, ahead, (reads_statements_of_closing ?_).mpr ⟨rfl, rfl⟩⟩
  rw [Stream.kind_current, ahead]
  exact closes

theorem closing_eq_false {closing : Kind → Bool} {kind : Kind}
    (closings : ∀ kind, closing kind = true → kind = .closeBrace ∨ kind = .eof)
    (begins : kind ∈ Kind.statementBeginnings) : closing kind = false := by
  refine Bool.eq_false_iff.mpr fun closed => ?_
  rcases closings _ closed with same | same
  · exact ne_of_mem_of_not_mem begins (by decide) same
  · exact ne_of_mem_of_not_mem begins (by decide) same

theorem isRead_statements {first : Statement} {others : List Statement} {middle : List Token}
    (begins : Token.nextKind before ∈ Kind.statementBeginnings)
    (first_read : IsRead (.statement first) before middle)
    (begins_others : middle = after ∨
      Token.nextKind middle ∈ Kind.statementBeginnings)
    (others_read : IsRead (.statements others) middle after)
    (shorter : middle.length < before.length) :
    IsRead (.statements (first :: others)) before after := by
  intro nested closing stream covers ahead closings closes
  have next : Token.nextKind middle ≠ .semicolon ∧ Token.nextKind middle ≠ .elseWord := by
    rcases begins_others with rfl | begins_others
    · rcases closings _ closes with same | same
      · rw [same]
        decide
      · rw [same]
        decide
    · constructor
      · exact ne_of_mem_of_not_mem begins_others (by decide)
      · exact ne_of_mem_of_not_mem begins_others (by decide)
  obtain ⟨last, ahead_last, read_first⟩ := first_read nested stream covers ahead next.1 next.2
  obtain ⟨final, ahead_final, read_others⟩ := others_read nested closing last.advance
    (covers.mono (Nat.le_of_lt shorter)) ahead_last closings closes
  have still : closing stream.current.kind = false := by
    rw [Stream.kind_current, ahead]
    exact closing_eq_false closings begins
  refine ⟨final, ahead_final, (reads_statements_of_not_closing still).mpr
    ⟨first, last, read_first, ?_, others, rfl, read_others⟩⟩
  rwa [Stream.length, Stream.length, ahead, ahead_last]

/-! ## Programs -/

/-- Every spelled phrase is read, by induction on its spelling. -/
theorem isRead_of_spelled {phrase : Phrase} (spelled : Spelled phrase before after) :
    IsRead phrase before after := by
  induction spelled with
  | identifier kind =>
      refine .of_operand fun stream ahead _ _ => ⟨stream, Stream.tokens_advance_eq ahead, ?_⟩
      simp [reads_operand, Stream.current_eq ahead, kind]
  | integer kind short small =>
      refine .of_operand fun stream ahead _ _ => ⟨stream, Stream.tokens_advance_eq ahead, ?_⟩
      simp [reads_operand, reads_integer, Stream.current_eq ahead, kind, short, small]
  | string kind =>
      refine .of_operand fun stream ahead _ _ => ⟨stream, Stream.tokens_advance_eq ahead, ?_⟩
      simp [reads_operand, Stream.current_eq ahead, kind]
  | boolean kind =>
      refine .of_operand fun stream ahead _ _ => ⟨stream, Stream.tokens_advance_eq ahead, ?_⟩
      rcases kind with kind | kind <;> simp [reads_operand, Stream.current_eq ahead, kind]
  | array kind _ inside => exact .array kind inside
  | hash kind _ inside => exact .hash kind inside
  | prefixed kind _ operand => exact .prefixed kind operand
  | infixed kind left_spelled right_spelled left right =>
      have fewer := left_spelled.length_after
      have shorter := right_spelled.length_after
      exact .infixed kind left right (Nat.lt_of_succ_le (Nat.le_of_succ_le fewer))
        (Nat.le_of_succ_le shorter)
  | conditional kind opened condition_spelled closed consequence_spelled condition consequence =>
      have shorter := condition_spelled.length_after
      exact .conditional kind opened condition closed consequence_spelled.begins consequence
        (Nat.le_of_succ_le (Nat.le_of_succ_le shorter))
  | alternative kind opened condition_spelled closed consequence_spelled otherwise
      alternative_spelled condition consequence alternative =>
      have shorter := condition_spelled.length_after
      have shorter_other := consequence_spelled.length_after
      simp only [List.length_cons, Phrase.least] at shorter shorter_other
      exact .alternative kind opened condition closed consequence_spelled.begins consequence
        otherwise alternative_spelled.begins alternative (by omega) (by omega)
  | function kind opened names_spelled body_spelled body =>
      exact .function kind opened names_spelled body_spelled.begins body
  | call kind callee_spelled arguments_spelled callee arguments =>
      have fewer := callee_spelled.length_after
      have shorter := arguments_spelled.length_after
      exact .call kind callee arguments (Nat.lt_of_succ_le (Nat.le_of_succ_le fewer))
        (Nat.le_of_succ_le shorter)
  | index kind container_spelled position_spelled closed container position =>
      have fewer := container_spelled.length_after
      have shorter := position_spelled.length_after
      exact .index kind container position closed (Nat.lt_of_succ_le (Nat.le_of_succ_le fewer))
        (Nat.le_of_succ_le (Nat.le_of_succ_le shorter))
  | ungrouped tight bare_spelled bare => exact .ungrouped tight bare_spelled.lowest_lt_strength bare
  | grouped opened _ closed inside => exact .grouped opened inside closed
  | noItems closed => exact isRead_noItems closed
  | items first_spelled others_spelled first others =>
      exact isRead_items first_spelled.begins first others_spelled.begins others
        (Nat.le_of_succ_le first_spelled.length_after)
  | noOtherItems closed => exact isRead_noOtherItems closed
  | otherItems separated first_spelled others_spelled first others =>
      exact isRead_otherItems separated first others_spelled.begins others
        (Nat.le_of_succ_le first_spelled.length_after)
  | noPairs closed => exact isRead_noPairs closed
  | lastPair key_spelled separated value_spelled closed key value =>
      have shorter := key_spelled.length_after
      have shorter_value := value_spelled.length_after
      simp only [List.length_cons, Phrase.least] at shorter shorter_value
      exact isRead_pairs key_spelled.begins key separated value (.inl ⟨closed, rfl⟩)
        (isRead_noPairs closed) (by omega) (by rw [List.length_cons]; omega)
  | pairs key_spelled separated value_spelled continued _ key value others =>
      have shorter := key_spelled.length_after
      have shorter_value := value_spelled.length_after
      simp only [List.length_cons, Phrase.least] at shorter shorter_value
      exact isRead_pairs key_spelled.begins key separated value (.inr ⟨_, continued, rfl⟩) others
        (by omega) (by omega)
  | block _ _ closed inside => exact isRead_block inside closed
  | openBlock _ _ inside => exact isRead_openBlock inside
  | binding kind named assigned _ terminated value =>
      exact isRead_binding kind named assigned value terminated
  | returning kind _ terminated value => exact isRead_returning kind value terminated
  | standing value_spelled terminated value =>
      exact isRead_standing value_spelled.begins value terminated
  | noStatements => exact isRead_noStatements
  | statements first_spelled others_spelled first others =>
      exact isRead_statements first_spelled.begins first others_spelled.begins_of_statements others
        first_spelled.length_after

theorem reads_of_spelled {found : Program} (spelled : found.Spelled stream.tokens) :
    ∃ final, program.Reads stream found final := by
  obtain ⟨final, _, read⟩ := isRead_of_spelled spelled expression (fun kind => kind = .eof) stream
    (covers_expression _) rfl (by simp) (by simp)
  refine ⟨final, ?_⟩
  simp only [program, Rule.reads_bind, Rule.reads_pure]
  exact ⟨found.statements, final, read, rfl, rfl⟩

end Grammar
end MarmosetLang
