import MarmosetLang.Grammar.Program
import MarmosetLang.Proofs.Grammar.Answering
import MarmosetLang.Proofs.Grammar.Course
import MarmosetLang.Proofs.Tree.Every

/-!
# Every token is examined

The course of each rule of the grammar.  A rule passes no numeral unless it reads it as a literal
that can be held, and raises no issue but at a token in sight.  So the course of a whole program
goes from the first token to the end of the stream.  The end is looked at once at most, because a
rule looks for an expression on the next token only where the current one is not the end.
-/

namespace MarmosetLang

/-- An integer literal is no larger than can be held. -/
def Expr.InRange : Expr → Prop
  | .integer _ value => value ≤ Grammar.maxInteger
  | _ => True

namespace Grammar

open Rule (Inspects Pursues Examines Proceeding)

variable {mark : Stream → List Issue} {nested : Nat → Rule Expr} {stream : Stream}

/-- A numeral is read as a literal that can be held, or else complained of. -/
theorem pursues_integer (kind : stream.current.kind = .integer) :
    integer.Pursues mark stream (Expr.Every Expr.InRange) := by
  refine .bind .current fun token rest ⟨token_eq, rest_eq⟩ => ?_
  subst token_eq rest_eq
  refine .ite (fun _ => .halt) fun not_long => ?_
  have short : rest.current.literal.length ≤ maxDigits := Nat.le_of_not_lt not_long
  refine .ite (fun oversized => .complain (.outOfRange kind short oversized)) fun small => ?_
  have in_range : Decimal.value rest.current.literal ≤ maxInteger := Nat.le_of_not_lt small
  rintro _ ⟨⟩
  refine ⟨.literal kind short in_range, ?_⟩
  rintro _ ⟨⟩
  exact .integer in_range

theorem peek_eq_of_followedBy {kind : Kind} (follows : followedBy kind stream = true) :
    stream.peek.kind = kind := by
  simpa [followedBy] using follows

theorem proceeding_parameters : parameters.Proceeding mark stream fun _ => True := by
  refine .bind .peek fun after rest ⟨after_eq, rest_eq⟩ => ?_
  subst after_eq rest_eq
  refine .ite (fun closes => ?_) fun _ => ?_
  · exact .bind (.advance (.move (closes ▸ nofun))) fun _ _ _ => .pure trivial
  · refine .bind (.expect nofun) fun _ _ _ =>
      .bind (.many (fun _ => True) (fun _ => True) trivial fun start _ separated => ?_)
        fun _ _ _ => .bind (.expect nofun) fun _ _ _ => .pure trivial
    have comma := peek_eq_of_followedBy separated
    refine .bind (.advance (.move (comma ▸ nofun))) fun _ _ _ => ?_
    exact .mono (.expect nofun) fun _ _ _ => ⟨trivial, trivial⟩

variable (inside : ∀ precedence stream,
  (nested precedence).Inspects mark stream (Expr.Every Expr.InRange))
include inside

/-! ## Statements -/

theorem proceeding_binding :
    (binding nested).Proceeding mark stream (Statement.Every Expr.InRange) :=
  .bind .current fun _ _ _ =>
    .bind (.expect nofun) fun _ _ _ =>
      .bind (.expect nofun) fun _ _ assign =>
        .bind (.advance (.advance (assign ▸ nofun))) fun _ _ _ =>
          .bind (.passing nofun (inside _ _)) fun _ _ good => .pure (.binding good)

theorem proceeding_returning (kind : stream.current.kind = .returnWord) :
    (returning nested).Proceeding mark stream (Statement.Every Expr.InRange) := by
  refine .bind .current fun _ rest ⟨_, rest_eq⟩ => ?_
  subst rest_eq
  exact .bind (.advance (.advance (kind ▸ nofun))) fun _ _ _ =>
    .bind (.passing nofun (inside _ _)) fun _ _ good => .pure (.returning good)

theorem inspects_standing :
    (standing nested).Inspects mark stream (Statement.Every Expr.InRange) :=
  .bind .current fun _ _ _ =>
    .bind (.passing nofun (inside _ _)) fun _ _ good => .pure (.expression good)

theorem inspects_statement :
    (statement nested).Inspects mark stream (Statement.Every Expr.InRange) := by
  refine .bind .current fun token rest ⟨token_eq, rest_eq⟩ => ?_
  subst token_eq rest_eq
  split
  · rename_i kind
    exact .after (.word (kind ▸ nofun)) (proceeding_binding inside)
  · rename_i kind
    exact .after (.word (kind ▸ nofun)) (proceeding_returning inside kind)
  · exact inspects_standing inside

/-- Statements stop before the token that closes them, and at the end at the latest. -/
theorem examines_statements {closing : Kind → Bool} (closed : closing .eof = true) :
    (statements nested closing).Examines mark stream (.between stream) .between
      fun found rest =>
        (∀ text ∈ found, text.Every Expr.InRange) ∧ closing rest.current.kind = true := by
  refine .bind (.many (fun found => ∀ text ∈ found, text.Every Expr.InRange) (fun _ => True) trivial
    fun start _ open_still => ?_) fun found rest ⟨good, closes⟩ => .pure ⟨?_, ?_⟩
  · have ne_eof : start.current.kind ≠ .eof := by
      intro ended
      simp [unclosed, ended, closed] at open_still
    exact .bind (.attempt (.after (.start ne_eof) (inspects_statement inside))) fun _ _ good =>
      .bind (.advance .resume) fun _ _ _ => .pure ⟨good, trivial⟩
  · intro text member
    obtain ⟨kept, kept_mem, kept_eq⟩ := List.mem_filterMap.mp member
    exact good kept kept_mem text kept_eq
  · simpa [unclosed] using closes

theorem proceeding_block : (block nested).Proceeding mark stream (Block.Every Expr.InRange) := by
  refine .bind .current fun _ _ _ => .bind (.advance .enter) fun _ _ _ =>
    .bind (examines_statements inside rfl) fun body rest ⟨good, closes⟩ => ?_
  have no_numeral : rest.current.kind ≠ .integer := by
    intro kind
    simp [kind] at closes
  exact .after (.close no_numeral) (.pure (.mk good))

/-! ## Operands -/

theorem proceeding_prefixed (kind : stream.current.kind ≠ .eof) :
    (prefixed nested).Proceeding mark stream (Expr.Every Expr.InRange) := by
  refine .bind .current fun _ rest ⟨_, rest_eq⟩ => ?_
  subst rest_eq
  exact .bind (.advance (.advance kind)) fun _ _ _ =>
    .bind (inside _ _) fun _ _ good => .pure (.prefixed trivial good)

theorem proceeding_grouped (kind : stream.current.kind ≠ .eof) :
    (grouped nested).Proceeding mark stream (Expr.Every Expr.InRange) :=
  .bind (.advance (.advance kind)) fun _ _ _ =>
    .bind (inside _ _) fun _ _ good =>
      .bind (.expect nofun) fun _ _ _ => .pure good

theorem proceeding_conditional :
    (conditional nested).Proceeding mark stream (Expr.Every Expr.InRange) := by
  refine .bind .current fun token _ _ => .bind (.expect nofun) fun _ _ open_paren =>
    .bind (.advance (.advance (open_paren ▸ nofun))) fun _ _ _ =>
      .bind (inside _ _) fun condition _ asked =>
        .bind (.expect nofun) fun _ _ _ => .bind (.expect nofun) fun _ _ _ =>
          .bind (proceeding_block inside) fun consequence _ either =>
            .bind .peek fun after rest ⟨after_eq, rest_eq⟩ => ?_
  subst after_eq rest_eq
  refine .ite (fun follows => ?_) fun _ => .pure (.conditional trivial asked either nofun)
  refine .bind (.advance (.move (follows ▸ nofun))) fun _ _ _ =>
    .bind (.expect nofun) fun _ _ _ =>
      .bind (proceeding_block inside) fun alternative _ otherwise => .pure ?_
  refine .conditional trivial asked either ?_
  rintro _ ⟨⟩
  exact otherwise

theorem proceeding_function :
    (function nested).Proceeding mark stream (Expr.Every Expr.InRange) :=
  .bind .current fun _ _ _ =>
    .bind (.expect nofun) fun _ _ _ =>
      .bind proceeding_parameters fun _ _ _ =>
        .bind (.expect nofun) fun _ _ _ =>
          .bind (proceeding_block inside) fun _ _ good => .pure (.function trivial good)

theorem proceeding_items {closing : Kind} (ne_integer : closing ≠ .integer)
    (kind : stream.current.kind ≠ .eof) :
    (items nested closing).Proceeding mark stream
      fun found => ∀ item ∈ found, item.Every Expr.InRange := by
  refine .bind .peek fun after rest ⟨after_eq, rest_eq⟩ => ?_
  subst after_eq rest_eq
  refine .ite (fun closes => ?_) fun _ => ?_
  · exact .bind (.advance (.move (closes ▸ ne_integer))) fun _ _ _ =>
      .pure (List.forall_mem_nil _)
  · refine .bind (.advance (.advance kind)) fun _ _ _ => .bind (inside _ _) fun first _ good =>
      .bind (.many (Expr.Every Expr.InRange) (fun _ => True) trivial fun start _ separated => ?_)
        fun _ _ ⟨others_good, _⟩ => .bind (.expect ne_integer) fun _ _ _ =>
          .pure (List.forall_mem_cons.mpr ⟨good, others_good⟩)
    have comma := peek_eq_of_followedBy separated
    refine .bind (.advance (.move (comma ▸ nofun))) fun _ next next_eq => ?_
    have next_comma : next.current.kind = .comma := by rw [next_eq, Stream.current_advance, comma]
    refine .bind (.advance (.advance (next_comma ▸ nofun))) fun _ _ _ => ?_
    exact .mono (inside _ _) fun _ _ item_good => ⟨item_good, trivial⟩

theorem proceeding_array (kind : stream.current.kind ≠ .eof) :
    (array nested).Proceeding mark stream (Expr.Every Expr.InRange) := by
  refine .bind .current fun _ rest ⟨_, rest_eq⟩ => ?_
  subst rest_eq
  exact .bind (proceeding_items inside nofun kind) fun _ _ good => .pure (.array trivial good)

/-- A pair ends before the closing brace or on a comma, so that there is no next one after the
end. -/
theorem examines_pair (kind : stream.current.kind ≠ .eof) :
    (pair nested).Examines mark stream (.behind stream) .behind fun found rest =>
      (found.1.Every Expr.InRange ∧ found.2.Every Expr.InRange) ∧
        (notFollowedBy .closeBrace rest = true → rest.current.kind ≠ .eof) := by
  have colon_ne : Kind.colon ≠ .eof := by decide
  have comma_ne : Kind.comma ≠ .eof := by decide
  refine .bind (.advance (.advance kind)) fun _ _ _ => .bind (inside _ _) fun key _ key_good =>
    .bind (.expect (by decide)) fun _ _ colon =>
      .bind (.advance (.advance (colon ▸ colon_ne))) fun _ _ _ =>
        .bind (inside _ _) fun value _ value_good => .bind .peek fun after rest looked => ?_
  obtain ⟨rfl, rfl⟩ := looked
  refine .ite (fun closes => .pure ⟨⟨key_good, value_good⟩, fun goes_on => ?_⟩) fun _ => ?_
  · simp [notFollowedBy, followedBy, closes] at goes_on
  · exact .bind (.expect (by decide)) fun _ _ comma =>
      .pure ⟨⟨key_good, value_good⟩, fun _ => comma ▸ comma_ne⟩

theorem proceeding_hash (kind : stream.current.kind ≠ .eof) :
    (hash nested).Proceeding mark stream (Expr.Every Expr.InRange) := by
  refine .bind .current fun _ rest looked => ?_
  obtain ⟨-, rfl⟩ := looked
  refine .bind (.many _ (fun start => notFollowedBy .closeBrace start = true →
    start.current.kind ≠ .eof) (fun _ => kind) fun start ne_eof go =>
      examines_pair inside (ne_eof go)) fun pairs last found => ?_
  obtain ⟨good, closes⟩ := found
  have brace_ne : Kind.closeBrace ≠ .integer := by decide
  have brace : last.peek.kind = .closeBrace := by simpa [notFollowedBy, followedBy] using closes
  refine .bind (.advance (.move (brace ▸ brace_ne))) fun _ _ _ => .pure ?_
  exact .hash trivial (fun pair member => (good pair member).1) fun pair member =>
    (good pair member).2

theorem pursues_operand : (operand nested).Pursues mark stream (Expr.Every Expr.InRange) := by
  refine .bind .current fun token rest ⟨token_eq, rest_eq⟩ => ?_
  subst token_eq rest_eq
  split <;> rename_i kind
  · exact .after (.pass (kind ▸ nofun)) (.pure (.identifier trivial))
  · exact pursues_integer kind
  · exact .after (.pass (kind ▸ nofun)) (.pure (.string trivial))
  · exact .after (.pass (kind ▸ nofun)) (.pure (.boolean trivial))
  · exact .after (.pass (kind ▸ nofun)) (.pure (.boolean trivial))
  · exact .after (.pass (kind ▸ nofun)) (proceeding_prefixed inside (kind ▸ nofun))
  · exact .after (.pass (kind ▸ nofun)) (proceeding_prefixed inside (kind ▸ nofun))
  · exact .after (.pass (kind ▸ nofun)) (proceeding_grouped inside (kind ▸ nofun))
  · exact .after (.pass (kind ▸ nofun)) (proceeding_conditional inside)
  · exact .after (.pass (kind ▸ nofun)) (proceeding_function inside)
  · exact .after (.pass (kind ▸ nofun)) (proceeding_array inside (kind ▸ nofun))
  · exact .after (.pass (kind ▸ nofun)) (proceeding_hash inside (kind ▸ nofun))
  · refine .complain (.noExpression ?_)
    simp_all [Kind.beginnings]

/-! ## Extensions -/

theorem proceeding_infixed {left : Expr} (left_good : left.Every Expr.InRange)
    (kind : stream.current.kind ≠ .eof) :
    (infixed nested left).Proceeding mark stream (Expr.Every Expr.InRange) := by
  refine .bind .current fun _ rest ⟨_, rest_eq⟩ => ?_
  subst rest_eq
  exact .bind (.advance (.advance kind)) fun _ _ _ =>
    .bind (inside _ _) fun _ _ good => .pure (.infixed trivial left_good good)

theorem proceeding_call {callee : Expr} (called : callee.Every Expr.InRange)
    (kind : stream.current.kind ≠ .eof) :
    (call nested callee).Proceeding mark stream (Expr.Every Expr.InRange) := by
  refine .bind .current fun _ rest ⟨_, rest_eq⟩ => ?_
  subst rest_eq
  exact .bind (proceeding_items inside nofun kind) fun _ _ good => .pure (.call trivial called good)

theorem proceeding_selection {container : Expr} (whence : container.Every Expr.InRange)
    (kind : stream.current.kind ≠ .eof) :
    (selection nested container).Proceeding mark stream (Expr.Every Expr.InRange) := by
  refine .bind .current fun _ rest ⟨_, rest_eq⟩ => ?_
  subst rest_eq
  exact .bind (.advance (.advance kind)) fun _ _ _ =>
    .bind (inside _ _) fun _ _ good =>
      .bind (.expect nofun) fun _ _ _ => .pure (.index trivial whence good)

theorem proceeding_extend {left : Expr} (left_good : left.Every Expr.InRange) :
    (extend nested left).Proceeding mark stream (Expr.Every Expr.InRange) := by
  refine .bind .peek fun after rest ⟨after_eq, rest_eq⟩ => ?_
  subst after_eq rest_eq
  split
  · exact .halt
  · rename_i rule extension
    have no_numeral : rest.peek.kind ≠ .integer := by
      intro kind
      rw [kind] at extension
      exact nomatch extension
    have ne_eof : rest.advance.current.kind ≠ .eof := by
      intro kind
      rw [Stream.current_advance] at kind
      rw [kind] at extension
      exact nomatch extension
    refine .bind (.advance (.move no_numeral)) fun _ next next_eq => ?_
    subst next_eq
    rcases extension?_eq_some extension with ⟨_, rfl⟩ | ⟨_, rfl⟩ | ⟨_, rfl⟩
    · exact proceeding_infixed inside left_good ne_eof
    · exact proceeding_call inside left_good ne_eof
    · exact proceeding_selection inside left_good ne_eof

theorem pursues_expressionOver (precedence : Nat) :
    (expressionOver nested precedence).Pursues mark stream (Expr.Every Expr.InRange) :=
  .bind (pursues_operand inside) fun _ _ good =>
    .foldWhile (fun _ _ left_good _ => proceeding_extend inside left_good) good

omit inside

theorem inspects_markedBelow (bound precedence : Nat) (stream : Stream) :
    (markedBelow mark bound precedence).Inspects mark stream (Expr.Every Expr.InRange) := by
  induction bound using Nat.strongRecOn generalizing precedence stream with
  | ind bound ih =>
      refine .guarded fun few => .congr (markedExpression_eq precedence stream) (.marked ?_)
      exact pursues_expressionOver (ih _ few) precedence

theorem inspects_markedExpression (precedence : Nat) (stream : Stream) :
    (markedExpression mark precedence).Inspects mark stream (Expr.Every Expr.InRange) :=
  .congr (markedExpression_eq precedence stream)
    (.marked (pursues_expressionOver (inspects_markedBelow _) precedence))

/-! ## Programs -/

/-- Where a stream is parsed, the issues and marks are those of a course from its first token to its
end, and the literals of the program that comes out can be held. -/
theorem course_of_markedParse {parsed : Parsed}
    (parse_eq : markedParse mark stream = .ok parsed) :
    ∃ last : Stream, Course mark (.between stream) parsed.issues (.between last) ∧
      last.tokens = [] ∧ parsed.program.Every Expr.InRange := by
  have examines : (markedProgram mark).Examines mark stream (.between stream) .between
      fun found rest => found.Every Expr.InRange ∧ rest.current.kind = .eof :=
    .bind (examines_statements inspects_markedExpression rfl) fun found rest ⟨good, ended⟩ =>
      .pure ⟨good, of_decide_eq_true ended⟩
  have succeeds : Rule.Succeeds (markedProgram mark stream) :=
    (succeeds_statements (markedExpression mark) (fun kind => kind = .eof) stream).bind fun _ _ =>
      Rule.succeeds_ok
  rw [markedParse] at parse_eq
  rcases answer : markedProgram mark stream with reason | ⟨_ | found, rest, issues, dropped⟩
  · rw [answer] at parse_eq
    cases parse_eq
  · exact absurd (succeeds _ answer) Bool.false_ne_true
  · obtain ⟨course, demand⟩ := examines _ answer
    obtain ⟨good, ended⟩ := demand found rfl
    rw [answer] at parse_eq
    cases parse_eq
    exact ⟨rest, course, Stream.tokens_eq_nil ended, good⟩

/-- The issues of a parse are those of a course without marks. -/
theorem course_of_parse {parsed : Parsed} (parse_eq : parse stream = .ok parsed) :
    ∃ last : Stream, Course noMarks (.between stream) parsed.issues (.between last) ∧
      last.tokens = [] ∧ parsed.program.Every Expr.InRange := by
  rw [← markedParse_noMarks] at parse_eq
  exact course_of_markedParse parse_eq

theorem warranted_of_parse {parsed : Parsed} (parse_eq : parse stream = .ok parsed) :
    ∀ issue ∈ parsed.issues, issue.Warranted := by
  obtain ⟨last, course, -⟩ := course_of_parse parse_eq
  exact course.warranted

end Grammar
end MarmosetLang
