import MarmosetLang.Proofs.Grammar.Accounting
import MarmosetLang.Proofs.Grammar.Completeness
import MarmosetLang.Proofs.Grammar.Soundness

/-!
# Parsing and spelling agree

The streams on which nothing is complained about are the spellings of programs, and each of them is
parsed as the program that it spells.
-/

namespace MarmosetLang
namespace Grammar

theorem parse_eq_of_reads {stream after : Stream} {found : Program}
    (read : program.Reads stream found after) : parse stream = .ok ⟨found, [], 0⟩ := by
  rw [parse, read]
  rfl

theorem parseText_of_spelled {source : String} {found : Program}
    (spelled : found.Spelled (Token.scan source)) : parseText source = .ok ⟨found, [], 0⟩ := by
  obtain ⟨after, read⟩ := @reads_of_spelled (Stream.ofText source) found spelled
  exact parse_eq_of_reads read

/-- The tokens of a small text with operators of three strengths. -/
def sampleTokens : List Token :=
  [⟨.minus, "-", 0⟩, ⟨.identifier, "a", 1⟩, ⟨.asterisk, "*", 3⟩, ⟨.openParen, "(", 5⟩,
    ⟨.integer, "2", 6⟩, ⟨.plus, "+", 8⟩, ⟨.identifier, "b", 10⟩, ⟨.closeParen, ")", 11⟩,
    ⟨.semicolon, ";", 12⟩]

theorem scan_sample : Token.scan "-a * (2 + b);" = sampleTokens := by
  decide +kernel

/-- The program that the small text spells. -/
def sampleProgram : Program :=
  ⟨[.expression ⟨.minus, "-", 0⟩
    (.infixed ⟨.asterisk, "*", 3⟩
      (.prefixed ⟨.minus, "-", 0⟩ (.identifier ⟨.identifier, "a", 1⟩))
      (.infixed ⟨.plus, "+", 8⟩ (.integer ⟨.integer, "2", 6⟩ (Decimal.value "2"))
        (.identifier ⟨.identifier, "b", 10⟩)))]⟩

theorem spelled_sample : sampleProgram.Spelled (Token.scan "-a * (2 + b);") := by
  have negated : Spelled
      (.expression 5 (.prefixed ⟨.minus, "-", 0⟩ (.identifier ⟨.identifier, "a", 1⟩)))
      sampleTokens (sampleTokens.drop 2) :=
    .ungrouped (by decide) (.prefixed (.inr rfl) (.ungrouped (by decide) (.identifier rfl)))
  have sum : Spelled
      (.expression 6
        (.infixed ⟨.plus, "+", 8⟩ (.integer ⟨.integer, "2", 6⟩ (Decimal.value "2"))
          (.identifier ⟨.identifier, "b", 10⟩)))
      (sampleTokens.drop 3) (sampleTokens.drop 8) :=
    .grouped rfl
      (.ungrouped (by decide)
        (.infixed (by decide)
          (.ungrouped (by decide) (.integer rfl (by decide +kernel) (by decide +kernel)))
          (.ungrouped (by decide) (.identifier rfl))))
      rfl
  rw [scan_sample]
  exact .statements
    (.standing (.ungrouped (by decide) (.infixed (by decide) negated sum)) (.semicolon rfl))
    .noStatements

/-- Every spelling of a program is parsed as exactly that program, without any complaint. -/
theorem parse_of_spelled (program : Program) :
    (∀ stream : Stream, program.Spelled stream.tokens → parse stream = .ok ⟨program, [], 0⟩) ∧
      ∀ text : String, program.Spelled (Token.scan text) →
        parseText text = .ok ⟨program, [], 0⟩ := by
  have parse_eq (stream : Stream) (spelled : program.Spelled stream.tokens) :
      parse stream = .ok ⟨program, [], 0⟩ := by
    obtain ⟨final, read⟩ := reads_of_spelled spelled
    exact parse_eq_of_reads read
  exact ⟨parse_eq, fun text spelled => parse_eq (Stream.ofText text) spelled⟩

theorem parseText_sample :
    sampleProgram.Spelled (Token.scan "-a * (2 + b);") ∧
      parseText "-a * (2 + b);" = .ok ⟨sampleProgram, [], 0⟩ :=
  ⟨spelled_sample, (parse_of_spelled sampleProgram).2 _ spelled_sample⟩

/-- A stream that is parsed without complaint is, to its end, a spelling of the program that comes
out.  Nothing is skipped, used twice or moved, and every node keeps its own token. -/
theorem spelled_of_parse {stream : Stream} {parsed : Parsed} (parse_eq : parse stream = .ok parsed)
    (clean : parsed.issues = []) : parsed.program.Spelled stream.tokens := by
  obtain ⟨after, read⟩ := reads_of_no_issues parse_eq clean
  exact spelled_of_program read

theorem spelled_of_parse_sample :
    parse (Stream.ofText "-a * (2 + b);") = .ok ⟨sampleProgram, [], 0⟩ ∧
      sampleProgram.Spelled (Stream.ofText "-a * (2 + b);").tokens := by
  obtain ⟨final, read⟩ :=
    @reads_of_spelled (Stream.ofText "-a * (2 + b);") sampleProgram spelled_sample
  have parse_eq := parse_eq_of_reads read
  exact ⟨parse_eq, spelled_of_parse parse_eq rfl⟩

end Grammar
end MarmosetLang
