import MarmosetLang.Proofs.Grammar.Answering
import MarmosetLang.Proofs.Grammar.Displacement
import MarmosetLang.Proofs.Grammar.Exactness
import MarmosetLang.Proofs.Grammar.Nesting
import MarmosetLang.Proofs.Token.Seam

/-!
# Texts in pieces

Where a text ends with a semicolon and leaves no brace open, parsing it together with another text
comes to the statements of the one and then to those of the other.  The first text is read as it was
on its own, up to the seam, and from there on the grammar knows nothing of it.
-/

namespace MarmosetLang

/-- The outcome of parsing with statements in front of those that were read. -/
def Parsed.prepend (statements : List Statement) (parsed : Parsed) : Parsed :=
  { parsed with program := ⟨statements ++ parsed.program.statements⟩ }

namespace Rule

variable {α β : Type} {before middle : Stream}

/-- A loop goes on after a clean reading as if it began there. -/
theorem many_of_reads {rule : Rule α} {more : Stream → Bool} {first : α}
    (go : more before = true) (read : rule.Reads before first middle)
    (shorter : middle.length < before.length) :
    many more rule before = (many more rule middle).map (Reply.map (first :: ·)) := by
  rw [many, if_pos go]
  exact (bind_of_reads read).trans (if_pos shorter)

theorem bind_pure_eq_map (rule : Rule α) (change : α → β) (stream : Stream) :
    (rule >>= fun value => pure (change value)) stream =
      (rule stream).map (Reply.map change) := by
  change Rule.bind rule _ stream = _
  rw [Rule.bind]
  rcases rule stream with reason | ⟨_ | value, rest, issues, dropped⟩
  · rfl
  · rfl
  · change (Except.ok _).map _ = _
    simp [Except.map, Reply.followedBy, Reply.map]

theorem map_map {γ : Type} (answer : Except Halt (Reply α)) (change : α → β) (again : β → γ) :
    (answer.map (Reply.map change)).map (Reply.map again) =
      answer.map (Reply.map (again ∘ change)) := by
  rcases answer with reason | ⟨_ | value, rest, issues, dropped⟩ <;> rfl

end Rule

namespace Grammar

open Token (depth Concluded)

variable {nested : Nat → Rule Expr} {closing : Kind → Bool} {stream rest : Stream}

/-- Where a statement is read, the others are read from its end on. -/
theorem statements_eq_of_reads {before middle : Stream} {first : Statement}
    (still : closing before.current.kind = false)
    (read : (statement nested).Reads before first middle)
    (shorter : middle.advance.length < before.length) :
    statements nested closing before =
      (statements nested closing middle.advance).map (Reply.map (first :: ·)) := by
  have go : unclosed closing before = true := by simp [unclosed, still]
  rw [statements, Rule.bind_pure_eq_map, Rule.bind_pure_eq_map,
    Rule.many_of_reads go (?_ : Rule.Reads _ before (some first) middle.advance) shorter,
    Rule.map_map, Rule.map_map]
  · rfl
  · simp only [Rule.reads_bind, Rule.reads_attempt, Rule.reads_advance, Rule.reads_pure]
    exact ⟨some first, middle, ⟨first, rfl, read⟩, (), _, rfl, rfl, rfl⟩

variable {before : List Token} {value : Expr}

/-- The last expression of a text that ends with a semicolon and leaves no brace open is read with
the semicolon after it, whatever comes next. -/
theorem reads_of_concluded {ahead further : List Token}
    (spelled : Spelled (.expression lowest value) before ahead)
    (terminated : Terminated ahead []) (concluded : Concluded before) (flat : depth before ≤ 0)
    (tokens_eq : stream.tokens = before ++ further) :
    ∃ final, final.advance.tokens = further ∧
      (Rule.passing .semicolon (expression lowest)).Reads stream value final := by
  cases terminated with
  | semicolon kind =>
      have readable := isRead_of_spelled (spelled.append nofun further)
      exact reads_of_semicolon readable kind (covers_expression _) tokens_eq
  | omitted =>
      have opens := spelled.level_lt trivial rfl concluded
      exact absurd opens (Int.not_lt.mpr flat)

theorem reads_last_statement {last : Statement} {further : List Token}
    (spelled : Spelled (.statement last) before []) (concluded : Concluded before)
    (flat : depth before ≤ 0) (tokens_eq : stream.tokens = before ++ further) :
    ∃ final, final.advance.tokens = further ∧ (statement expression).Reads stream last final := by
  cases spelled with
  | binding kind named assigned value_spelled terminated =>
      have ahead := Stream.tokens_advance_eq
        (Stream.tokens_advance_eq (Stream.tokens_advance_eq tokens_eq))
      obtain ⟨final, ahead_final, read⟩ := reads_of_concluded value_spelled terminated
        concluded.tail.tail.tail (by simpa [kind, named, assigned, Kind.weight] using flat) ahead
      exact ⟨final, ahead_final, reads_statement_binding kind named assigned tokens_eq read⟩
  | returning kind value_spelled terminated =>
      obtain ⟨final, ahead_final, read⟩ := reads_of_concluded value_spelled terminated
        concluded.tail (by simpa [kind, Kind.weight] using flat)
        (Stream.tokens_advance_eq tokens_eq)
      exact ⟨final, ahead_final, reads_statement_returning kind tokens_eq read⟩
  | standing value_spelled terminated =>
      obtain ⟨final, ahead_final, read⟩ :=
        reads_of_concluded value_spelled terminated concluded flat tokens_eq
      exact ⟨final, ahead_final, reads_statement_standing value_spelled.begins tokens_eq read⟩

/-- A statement after which another one comes is read as it was, whatever comes after that. -/
theorem reads_inner_statement {first : Statement} {middle further : List Token}
    (spelled : Spelled (.statement first) before middle)
    (begins : Token.nextKind middle ∈ Kind.statementBeginnings)
    (tokens_eq : stream.tokens = before ++ further) :
    ∃ final, final.advance.tokens = middle ++ further ∧
      (statement expression).Reads stream first final := by
  have ne_nil : middle ≠ [] := by
    rintro rfl
    exact absurd begins (by decide)
  have next_eq := Token.nextKind_append ne_nil further
  refine isRead_of_spelled (spelled.append ne_nil further) expression stream (covers_expression _)
    tokens_eq ?_ ?_
  · exact next_eq ▸ ne_of_mem_of_not_mem begins (by decide)
  · exact next_eq ▸ ne_of_mem_of_not_mem begins (by decide)

/-- The statements of a text that ends with a semicolon and leaves no brace open are read as they
were, and then whatever comes after them. -/
theorem statements_append {values : List Statement}
    (spelled : Spelled (.statements values) before []) (concluded : Concluded before)
    (flat : depth before ≤ 0)
    (closings : ∀ kind, closing kind = true → kind = .closeBrace ∨ kind = .eof)
    (tokens_eq : stream.tokens = before ++ rest.tokens) (ending_eq : stream.ending = rest.ending) :
    statements expression closing stream =
      (statements expression closing rest).map (Reply.map (values ++ ·)) := by
  induction values generalizing before stream with
  | nil =>
      cases spelled
      rw [Stream.ext tokens_eq ending_eq]
      exact (Rule.map_id _).symm
  | cons first others ih =>
      cases spelled with
      | @statements _ _ _ middle _ first_spelled others_spelled =>
          have first_le := first_spelled.level_le
          have still : closing stream.current.kind = false := by
            rw [Stream.kind_current, tokens_eq,
              Token.nextKind_append (first_spelled.ne_nil Nat.one_pos)]
            exact closing_eq_false closings first_spelled.begins
          obtain ⟨final, ahead_final, read⟩ : ∃ final,
              final.advance.tokens = middle ++ rest.tokens ∧
                (statement expression).Reads stream first final := by
            rcases others_spelled.begins_of_statements with rfl | begins
            · exact reads_last_statement first_spelled concluded flat tokens_eq
            · exact reads_inner_statement first_spelled begins tokens_eq
          have shorter : final.advance.length < stream.length := by
            have fewer := first_spelled.length_after
            rw [Stream.length, Stream.length, ahead_final, tokens_eq, List.length_append,
              List.length_append]
            exact Nat.add_lt_add_right fewer _
          have steps := Rule.compositional_onward.statement Rule.compositional_onward.expression
          have within : final.Within stream := steps stream _ read
          rw [statements_eq_of_reads still read shorter,
            ih others_spelled (concluded.of_suffix first_spelled.suffix) ?_ ahead_final
              (within.ending_eq.trans ending_eq), Rule.map_map]
          · rfl
          · simp only [Phrase.level] at first_le
            omega

theorem parse_append {first : Program} (spelled : first.Spelled before)
    (concluded : Concluded before) (flat : depth before ≤ 0)
    (tokens_eq : stream.tokens = before ++ rest.tokens) (ending_eq : stream.ending = rest.ending) :
    parse stream = (parse rest).map (Parsed.prepend first.statements) := by
  rw [parse, parse, program, Rule.bind_pure_eq_map, Rule.bind_pure_eq_map,
    statements_append spelled concluded flat (by simp) tokens_eq ending_eq]
  have succeeds := succeeds_statements expression (fun kind => kind = .eof) rest
  rcases answer : statements expression (fun kind => kind = .eof) rest with
    reason | ⟨_ | found, last, issues, dropped⟩
  · rfl
  · exact absurd (succeeds _ answer) Bool.false_ne_true
  · rfl

/-- Parsing a text that ends with a semicolon and leaves no brace open, together with another
one. -/
theorem parseText_append {first : String} {parsed : Parsed}
    (parse_eq : parseText first = .ok parsed) (clean : parsed.issues = [])
    (concluded : Concluded (Token.scan first)) (flat : depth (Token.scan first) ≤ 0)
    (second : String) :
    parseText (first ++ second) = (parseText second).map fun later =>
      (later.relocate (first.length + ·)).prepend parsed.program.statements := by
  have spelled : parsed.program.Spelled (Token.scan first) := spelled_of_parse parse_eq clean
  have tokens_eq : (Stream.ofText (first ++ second)).tokens =
      Token.scan first ++ ((Stream.ofText second).relocate (first.length + ·)).tokens :=
    Token.scan_append second concluded
  have ending_eq : (Stream.ofText (first ++ second)).ending =
      ((Stream.ofText second).relocate (first.length + ·)).ending := by
    simp only [Stream.ofText, Stream.relocate, Token.endOf, Token.relocate, String.length_append]
  rw [parseText, parse_append spelled concluded flat tokens_eq ending_eq, parse_relocate, parseText]
  cases parse (Stream.ofText second) <;> rfl

end Grammar
end MarmosetLang
