import MarmosetLang.Proofs.Grammar.Progress
import MarmosetLang.Proofs.Grammar.Spelling

/-!
# Every stream gets an answer

The rules of the grammar come to an end on every stream, however malformed it is: they answer unless
they meet a numeral that is too long.  Expressions inside another one begin after its first token,
so that the rule for them may ask for fewer tokens ahead; and a loop of the grammar goes round again
only after a token that has just been passed.
-/

namespace MarmosetLang
namespace Grammar

open Rule (Answers Proceeds)

/-- Fewer tokens are ahead than the given number. -/
def Fits (bound : Nat) (stream : Stream) : Prop :=
  stream.length < bound

/-- A rule for nested expressions comes to an end wherever few enough tokens are ahead. -/
def Ready (nested : Nat → Rule Expr) (bound : Nat) : Prop :=
  ∀ precedence stream, lowest ≤ precedence → Fits bound stream →
    (nested precedence).Proceeds stream

variable {α β : Type} {nested : Nat → Rule Expr} {bound : Nat} {stream rest : Stream}

theorem Fits.within (fits : Fits bound stream) (within : rest.Within stream) : Fits bound rest :=
  Nat.lt_of_le_of_lt within.length_le fits

theorem Fits.advance (fits : Fits bound stream) : Fits bound stream.advance :=
  fits.within stream.within_advance

/-- One rule after another where few enough tokens are ahead, as there still are for the second. -/
theorem Fits.bind {rule : Rule α} {next : α → Rule β} {Demand : α → Stream → Prop}
    {Later : β → Stream → Prop} (fits : Fits bound stream) (first : rule.Answers stream Demand)
    (second : ∀ value rest, Fits bound rest → Demand value rest →
      (next value).Answers rest Later) :
    (rule >>= next).Answers stream Later :=
  first.bind fun value rest within demand => second value rest (fits.within within) demand

theorem proceeds_integer (kind : stream.current.kind = .integer) : integer.Proceeds stream := by
  refine .bind .current fun token rest _ ⟨token_eq, rest_eq⟩ => ?_
  subst token_eq rest_eq
  refine .ite (fun long => .halt (Stream.hasLong_current kind long)) fun _ => ?_
  exact .ite (fun _ => .complain) fun _ => .pure trivial

/-- A further name of a parameter is behind the comma before it. -/
theorem answers_name :
    Answers (do Rule.advance; Rule.expect .identifier) stream fun _ rest =>
      rest.length < stream.length := by
  refine .bind .advance fun _ rest within _ => ?_
  refine .mono (.expect nofun) fun _ last _ ⟨last_eq, shorter⟩ => ?_
  exact last_eq ▸ Nat.lt_of_lt_of_le shorter within.length_le

theorem proceeds_parameters : parameters.Proceeds stream := by
  refine .bind .peek fun _ _ _ _ => .ite (fun _ => ?_) fun _ => ?_
  · exact .bind .advance fun _ _ _ _ => .pure trivial
  · exact .bind (.expect nofun) fun _ _ _ _ => .bind (.many fun _ _ _ => answers_name)
      fun _ _ _ _ => .bind (.expect nofun) fun _ _ _ _ => .pure trivial

variable (ready : Ready nested bound)
include ready

/-! ## Statements -/

theorem Ready.lowest (fits : Fits bound stream) : (nested lowest).Proceeds stream :=
  ready _ _ (Nat.le_refl _) fits

theorem proceeds_binding (fits : Fits bound stream) : (binding nested).Proceeds stream :=
  fits.bind .current fun _ _ fits _ =>
    fits.bind (.expect nofun) fun _ _ fits _ =>
      fits.bind (.expect nofun) fun _ _ fits _ =>
        fits.bind .advance fun _ _ fits _ =>
          fits.bind (.passing _ (ready.lowest fits)) fun _ _ _ _ => .pure trivial

theorem proceeds_returning (fits : Fits bound stream) : (returning nested).Proceeds stream :=
  fits.bind .current fun _ _ fits _ =>
    fits.bind .advance fun _ _ fits _ =>
      fits.bind (.passing _ (ready.lowest fits)) fun _ _ _ _ => .pure trivial

theorem proceeds_standing (fits : Fits bound stream) : (standing nested).Proceeds stream :=
  fits.bind .current fun _ _ fits _ =>
    fits.bind (.passing _ (ready.lowest fits)) fun _ _ _ _ => .pure trivial

theorem proceeds_statement (fits : Fits bound stream) : (statement nested).Proceeds stream := by
  refine fits.bind .current fun token rest fits _ => ?_
  split
  · exact proceeds_binding ready fits
  · exact proceeds_returning ready fits
  · exact proceeds_standing ready fits

/-- Whether or not a statement fails, what is read next begins behind its first token. -/
theorem answers_attempt_statement {closing : Kind → Bool} (closed : closing .eof = true)
    (go : unclosed closing stream = true) (fits : Fits bound stream) :
    Answers (do let found ← Rule.attempt (statement nested); Rule.advance; return found) stream
      fun _ rest => rest.length < stream.length := by
  have ne_eof : stream.current.kind ≠ .eof := by
    intro ended
    rw [unclosed, ended, closed] at go
    exact nomatch go
  have attempted := Answers.attempt (proceeds_statement ready fits)
  refine attempted.bind fun _ rest within _ => .bind .advance fun _ last _ last_eq => ?_
  subst last_eq
  exact .pure (Nat.lt_of_le_of_lt within.advance.length_le (stream.length_advance_lt ne_eof))

/-- Statements end at the end of the stream at the latest. -/
theorem proceeds_statements {closing : Kind → Bool} (closed : closing .eof = true)
    (fits : Fits bound stream) : (statements nested closing).Proceeds stream := by
  refine fits.bind (.many fun _ within go => ?_) fun _ _ _ _ => .pure trivial
  exact answers_attempt_statement ready closed go (fits.within within)

theorem proceeds_block (fits : Fits bound stream) : (block nested).Proceeds stream :=
  fits.bind .current fun _ _ fits _ =>
    fits.bind .advance fun _ _ fits _ =>
      fits.bind (proceeds_statements ready rfl fits) fun _ _ _ _ => .pure trivial

/-! ## Operands

An operand may begin where only what comes after its first token is known to be short enough. -/

theorem proceeds_prefixed (fits : Fits bound stream.advance) :
    (prefixed nested).Proceeds stream := by
  refine .bind .current fun _ rest _ ⟨_, rest_eq⟩ => .bind .advance fun _ last _ last_eq => ?_
  subst last_eq rest_eq
  exact fits.bind (ready _ _ (by decide) fits) fun _ _ _ _ => .pure trivial

theorem proceeds_grouped (fits : Fits bound stream.advance) :
    (grouped nested).Proceeds stream := by
  refine .bind .advance fun _ rest _ rest_eq => ?_
  subst rest_eq
  exact fits.bind (ready.lowest fits) fun _ _ fits _ =>
    fits.bind (.expect nofun) fun _ _ _ _ => .pure trivial

theorem proceeds_conditional (fits : Fits bound stream.advance) :
    (conditional nested).Proceeds stream := by
  refine .bind .current fun _ rest _ ⟨_, rest_eq⟩ =>
    .bind (.expect nofun) fun _ last _ ⟨last_eq, _⟩ => ?_
  subst last_eq rest_eq
  refine fits.bind .advance fun _ _ fits _ => fits.bind (ready.lowest fits) fun _ _ fits _ =>
    fits.bind (.expect nofun) fun _ _ fits _ => fits.bind (.expect nofun) fun _ _ fits _ =>
      fits.bind (proceeds_block ready fits) fun _ _ fits _ => fits.bind .peek fun _ _ fits _ => ?_
  refine .ite (fun _ => ?_) fun _ => .pure trivial
  exact fits.bind .advance fun _ _ fits _ => fits.bind (.expect nofun) fun _ _ fits _ =>
    fits.bind (proceeds_block ready fits) fun _ _ _ _ => .pure trivial

theorem proceeds_function (fits : Fits bound stream.advance) :
    (function nested).Proceeds stream := by
  refine .bind .current fun _ rest _ ⟨_, rest_eq⟩ =>
    .bind (.expect nofun) fun _ last _ ⟨last_eq, _⟩ => ?_
  subst last_eq rest_eq
  exact fits.bind proceeds_parameters fun _ _ fits _ =>
    fits.bind (.expect nofun) fun _ _ fits _ =>
      fits.bind (proceeds_block ready fits) fun _ _ _ _ => .pure trivial

/-- A further item is behind the comma before it. -/
theorem answers_item (go : followedBy .comma stream = true) (fits : Fits bound stream) :
    Answers (do Rule.advance; Rule.advance; nested lowest) stream fun _ rest =>
      rest.length < stream.length := by
  have comma : stream.peek.kind = .comma := by simpa [followedBy] using go
  have shorter := Stream.length_advance_lt_of_peek (comma ▸ nofun : stream.peek.kind ≠ .eof)
  refine .bind .advance fun _ next _ next_eq => .bind .advance fun _ item _ item_eq => ?_
  subst item_eq next_eq
  refine .of_proceeds (ready.lowest fits.advance.advance) fun _ last last_within => ?_
  have last_le := (last_within.trans stream.advance.within_advance).length_le
  exact Nat.lt_of_le_of_lt last_le shorter

theorem proceeds_items {closing : Kind} (ne_eof : closing ≠ .eof)
    (fits : Fits bound stream.advance) : (items nested closing).Proceeds stream := by
  refine .bind .peek fun _ rest _ ⟨_, rest_eq⟩ => ?_
  subst rest_eq
  refine .ite (fun _ => .bind .advance fun _ _ _ _ => .pure trivial) fun _ => ?_
  refine .bind .advance fun _ last _ last_eq => ?_
  subst last_eq
  exact fits.bind (ready.lowest fits) fun _ first fits _ =>
    fits.bind (.many fun start within go => answers_item ready go (fits.within within))
      fun _ _ fits _ => fits.bind (.expect ne_eof) fun _ _ _ _ => .pure trivial

theorem proceeds_array (fits : Fits bound stream.advance) : (array nested).Proceeds stream := by
  refine .bind .current fun _ rest _ ⟨_, rest_eq⟩ => ?_
  subst rest_eq
  exact .bind (proceeds_items ready nofun fits) fun _ _ _ _ => .pure trivial

/-- A pair is behind the colon in it. -/
theorem answers_pair (fits : Fits bound stream.advance) :
    (pair nested).Answers stream fun _ rest => rest.length < stream.length := by
  refine .bind .advance fun _ next next_within next_eq => ?_
  subst next_eq
  refine .bind (ready.lowest fits) fun key middle middle_within _ =>
    .bind (.expect nofun) fun _ last last_within ⟨last_eq, shorter⟩ => ?_
  have rest_lt : last.length < stream.length :=
    last_eq ▸ Nat.lt_of_lt_of_le shorter (middle_within.trans next_within).length_le
  have last_fits := fits.within (last_within.trans middle_within)
  refine .of_proceeds ?_ fun _ final within => Nat.lt_of_le_of_lt within.length_le rest_lt
  refine last_fits.bind .advance fun _ _ fits _ => fits.bind (ready.lowest fits) fun _ _ fits _ =>
    fits.bind .peek fun _ _ fits _ => .ite (fun _ => .pure trivial) fun _ => ?_
  exact fits.bind (.expect nofun) fun _ _ _ _ => .pure trivial

theorem proceeds_hash (fits : Fits bound stream.advance) : (hash nested).Proceeds stream := by
  refine .bind .current fun _ rest _ ⟨_, rest_eq⟩ => ?_
  subst rest_eq
  refine .bind (.many fun start within _ => answers_pair ready (fits.within within.advance))
    fun _ _ _ _ => ?_
  exact .bind .advance fun _ _ _ _ => .pure trivial

theorem proceeds_operand
    (fits : stream.current.kind ≠ .eof → Fits bound stream.advance) :
    (operand nested).Proceeds stream := by
  refine .bind .current fun token rest _ ⟨token_eq, rest_eq⟩ => ?_
  subst token_eq rest_eq
  have fits_of {kind : Kind} (same : rest.current.kind = kind) (ne_eof : kind ≠ .eof) :
      Fits bound rest.advance :=
    fits (same ▸ ne_eof)
  split
  · exact .pure trivial
  · rename_i kind
    exact proceeds_integer kind
  · exact .pure trivial
  · exact .pure trivial
  · exact .pure trivial
  · rename_i kind
    exact proceeds_prefixed ready (fits_of kind nofun)
  · rename_i kind
    exact proceeds_prefixed ready (fits_of kind nofun)
  · rename_i kind
    exact proceeds_grouped ready (fits_of kind nofun)
  · rename_i kind
    exact proceeds_conditional ready (fits_of kind nofun)
  · rename_i kind
    exact proceeds_function ready (fits_of kind nofun)
  · rename_i kind
    exact proceeds_array ready (fits_of kind nofun)
  · rename_i kind
    exact proceeds_hash ready (fits_of kind nofun)
  · exact .complain

/-! ## Extensions -/

theorem proceeds_infixed (left : Expr) (fits : Fits bound stream.advance) :
    (infixed nested left).Proceeds stream := by
  refine .bind .current fun _ rest _ ⟨_, rest_eq⟩ => .bind .advance fun _ last _ last_eq => ?_
  subst last_eq rest_eq
  exact fits.bind (ready _ _ (lowest_le_strength _) fits) fun _ _ _ _ => .pure trivial

theorem proceeds_call (callee : Expr) (fits : Fits bound stream.advance) :
    (call nested callee).Proceeds stream := by
  refine .bind .current fun _ rest _ ⟨_, rest_eq⟩ => ?_
  subst rest_eq
  exact .bind (proceeds_items ready nofun fits) fun _ _ _ _ => .pure trivial

theorem proceeds_selection (container : Expr) (fits : Fits bound stream.advance) :
    (selection nested container).Proceeds stream := by
  refine .bind .current fun _ rest _ ⟨_, rest_eq⟩ => .bind .advance fun _ last _ last_eq => ?_
  subst last_eq rest_eq
  exact fits.bind (ready.lowest fits) fun _ _ fits _ =>
    fits.bind (.expect nofun) fun _ _ _ _ => .pure trivial

omit ready in
/-- Whatever binds more tightly than asked for can extend an expression. -/
theorem mem_extensions_of_continues {precedence : Nat} (le : lowest ≤ precedence)
    (go : continues precedence stream = true) : stream.peek.kind ∈ Kind.extensions := by
  have tighter : precedence < strength stream.peek.kind := by
    simp only [continues, Bool.and_eq_true, decide_eq_true_eq] at go
    exact go.2
  refine Decidable.byContradiction fun other => ?_
  rw [(strength_eq_lowest_iff _).mpr other] at tighter
  exact Nat.not_lt.mpr le tighter

theorem answers_extend (left : Expr) (extends_left : stream.peek.kind ∈ Kind.extensions)
    (fits : Fits bound stream.advance.advance) :
    (extend nested left).Answers stream fun _ rest => rest.length < stream.length := by
  have ne_eof : stream.peek.kind ≠ .eof := ne_of_mem_of_not_mem extends_left (by decide)
  have shorter := Stream.length_advance_lt_of_peek ne_eof
  refine .bind .peek fun after rest _ ⟨after_eq, rest_eq⟩ => ?_
  subst after_eq rest_eq
  split
  · rename_i none_found
    revert none_found extends_left
    cases rest.peek.kind <;> simp [extension?, Kind.extensions, Kind.infixes]
  · rename_i rule extension
    refine .bind .advance fun _ last _ last_eq => ?_
    subst last_eq
    have proceeds : rule.Proceeds rest.advance := by
      rcases extension?_eq_some extension with ⟨_, rfl⟩ | ⟨_, rfl⟩ | ⟨_, rfl⟩
      · exact proceeds_infixed ready left fits
      · exact proceeds_call ready left fits
      · exact proceeds_selection ready left fits
    exact .of_proceeds proceeds fun _ _ within => Nat.lt_of_le_of_lt within.length_le shorter

theorem proceeds_expressionOver {precedence : Nat} (le : lowest ≤ precedence)
    (few : stream.length ≤ bound) : (expressionOver nested precedence).Proceeds stream := by
  have operand_proceeds : (operand nested).Proceeds stream :=
    proceeds_operand ready fun kind => Nat.lt_of_lt_of_le (stream.length_advance_lt kind) few
  refine operand_proceeds.bind fun left rest within _ => ?_
  refine .foldWhile (fun value start start_within go => ?_) left
  have extends_value := mem_extensions_of_continues le go
  have ne_eof : start.peek.kind ≠ .eof := ne_of_mem_of_not_mem extends_value (by decide)
  refine answers_extend ready value extends_value ?_
  calc start.advance.advance.length < start.advance.length :=
        start.advance.length_advance_lt ne_eof
    _ ≤ start.length := start.length_advance_le
    _ ≤ bound := Nat.le_trans (start_within.trans within).length_le few

omit ready

theorem ready_expressionBelow (bound : Nat) : Ready (expressionBelow bound) bound := by
  induction bound using Nat.strongRecOn with
  | ind bound ih =>
      intro precedence stream le fits
      refine .guarded fits (.congr (expression_eq precedence stream) ?_)
      exact proceeds_expressionOver (ih _ fits) le (Nat.le_refl _)

theorem proceeds_expression {precedence : Nat} (le : lowest ≤ precedence) :
    (expression precedence).Proceeds stream :=
  .congr (expression_eq precedence stream)
    (proceeds_expressionOver (ready_expressionBelow _) le (Nat.le_refl _))

theorem ready_expression (bound : Nat) : Ready expression bound :=
  fun _ _ le _ => proceeds_expression le

/-- Statements that fail are left out, so that there is always a list of those that do not. -/
theorem succeeds_statements (nested : Nat → Rule Expr) (closing : Kind → Bool) (stream : Stream) :
    Rule.Succeeds (statements nested closing stream) := by
  refine Rule.Succeeds.bind (Rule.sequential_succeeds.always_many _ (fun start => ?_) stream)
    fun _ _ => Rule.succeeds_ok
  exact Rule.Succeeds.bind (Rule.succeeds_attempt _ start) fun _ _ =>
    Rule.Succeeds.bind Rule.succeeds_ok fun _ _ => Rule.succeeds_ok

theorem proceeds_program : program.Proceeds stream := by
  have fits : Fits (stream.length + 1) stream := Nat.lt_succ_self _
  exact .bind (proceeds_statements (ready_expression _) rfl fits) fun _ _ _ _ => .pure trivial

/-- Every stream in which no numeral is too long is parsed. -/
theorem exists_parse_eq (short : stream.Short) : ∃ parsed, parse stream = .ok parsed := by
  obtain ⟨reply, answer⟩ := proceeds_program.exists_reply short
  exact ⟨_, by rw [parse, answer]; rfl⟩

end Grammar
end MarmosetLang
