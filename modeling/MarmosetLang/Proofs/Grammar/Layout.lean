import MarmosetLang.Proofs.Grammar.Displacement
import MarmosetLang.Proofs.Grammar.Examination
import Mathlib.Data.List.Forall2

/-!
# Layout does not matter

Texts that differ in layout only have the same tokens at different places.  The tokens of both may
be put where only their order counts, and then they are the same: parsing either text is parsing
this one stream, with its tokens moved to where they are in the text.
-/

namespace MarmosetLang

namespace Stream

/-- The stream with every token at the place that its number among the others says. -/
def numbered (stream : Stream) : Stream where
  tokens := stream.tokens.mapIdx fun number token => { token with offset := number }
  ending := { stream.ending with offset := stream.length }
  kind_ne_eof token member := by
    obtain ⟨number, lt, rfl⟩ := List.mem_mapIdx.mp member
    exact stream.kind_ne_eof stream.tokens[number] (List.getElem_mem lt)
  kind_ending := stream.kind_ending

/-- The place of the token with a given number. -/
def placeOf (stream : Stream) (number : Nat) : Nat :=
  (stream.get number).offset

/-- The tokens of two streams are the same but for their places. -/
structure SameWords (stream other : Stream) : Prop where
  /-- The tokens ahead have the same kinds and literals. -/
  tokens : stream.tokens.map (fun token => (token.kind, token.literal)) =
    other.tokens.map fun token => (token.kind, token.literal)
  /-- So have the endings. -/
  ending : stream.ending.literal = other.ending.literal

variable {stream other : Stream}

theorem get_relocate (move : Nat → Nat) (stream : Stream) (distance : Nat) :
    (stream.relocate move).get distance = (stream.get distance).relocate move := by
  change (stream.tokens.map (Token.relocate move)).getD distance (stream.ending.relocate move) = _
  rw [get, List.getD_eq_getElem?_getD, List.getD_eq_getElem?_getD, List.getElem?_map,
    Option.getD_map]

theorem relocate_numbered (stream : Stream) : stream.numbered.relocate stream.placeOf = stream := by
  refine Stream.ext (List.ext_getElem ?_ fun number _ lt => ?_) ?_
  · simp [relocate, numbered]
  · simp [relocate, numbered, placeOf, Token.relocate, get, lt]
  · simp [relocate, numbered, placeOf, Token.relocate, get, length]

theorem SameWords.numbered_eq (same : stream.SameWords other) :
    stream.numbered = other.numbered := by
  have length_eq : stream.tokens.length = other.tokens.length := by
    simpa using congrArg List.length same.tokens
  refine Stream.ext (List.ext_getElem ?_ fun number lt other_lt => ?_) ?_
  · simp [numbered, length_eq]
  · simp only [numbered, List.length_mapIdx] at lt other_lt
    have words := List.getElem_of_eq same.tokens (by simpa using lt)
    simp only [List.getElem_map, Prod.mk.injEq] at words
    simp [numbered, words.1, words.2]
  · simp [numbered, length, length_eq, same.ending, stream.kind_ending, other.kind_ending]

end Stream

namespace Grammar

variable {stream : Stream}

/-- Parsing a stream without over-long numerals is parsing the stream of its numbered tokens.  Every
issue is about one of these. -/
theorem exists_parse_numbered (short : stream.Short) :
    ∃ parsed, parse stream.numbered = .ok parsed ∧
      parse stream = .ok (parsed.relocate stream.placeOf) ∧
      ∀ issue ∈ parsed.issues, ∃ number, issue.token = stream.numbered.get number := by
  obtain ⟨found, parse_eq⟩ := exists_parse_eq short
  have relocated := parse_relocate stream.placeOf stream.numbered
  rw [stream.relocate_numbered, parse_eq] at relocated
  rcases numbered_eq : parse stream.numbered with reason | parsed
  · rw [numbered_eq] at relocated
    cases relocated
  · rw [numbered_eq] at relocated
    obtain ⟨last, course, -, -⟩ := course_of_parse numbered_eq
    exact ⟨parsed, rfl, parse_eq.trans relocated, course.exists_token_eq_get⟩

/-- Two issues are of the same cause, and about tokens with the same number in two streams. -/
structure SameIssue (first second : Stream) (issue other : Issue) : Prop where
  /-- The wording is the same. -/
  message_eq : issue.message = other.message
  /-- The tokens have the same number. -/
  tokens : ∃ number, issue.token = first.get number ∧ other.token = second.get number

/-- Streams whose tokens are the same but for their places are parsed as one program with its tokens
at different places, and with the same issues about corresponding tokens. -/
theorem exists_parse_of_sameWords {first second : Stream} (same : first.SameWords second)
    (short : first.Short) :
    ∃ parsed : Parsed, parse first = .ok (parsed.relocate first.placeOf) ∧
      parse second = .ok (parsed.relocate second.placeOf) ∧
      List.Forall₂ (SameIssue first second) (parsed.relocate first.placeOf).issues
        (parsed.relocate second.placeOf).issues := by
  obtain ⟨parsed, numbered_eq, first_eq, attached⟩ := exists_parse_numbered short
  have second_eq := parse_relocate second.placeOf second.numbered
  rw [second.relocate_numbered, ← same.numbered_eq, numbered_eq] at second_eq
  refine ⟨parsed, first_eq, second_eq, ?_⟩
  change List.Forall₂ _ (parsed.issues.map _) (parsed.issues.map _)
  rw [List.forall₂_map_left_iff, List.forall₂_map_right_iff, List.forall₂_same]
  intro issue member
  obtain ⟨number, token_eq⟩ := attached issue member
  refine ⟨?_, number, ?_, ?_⟩
  · rw [Issue.message_relocate, Issue.message_relocate]
  · rw [Issue.relocate, token_eq, ← Stream.get_relocate, first.relocate_numbered]
  · rw [Issue.relocate, token_eq, same.numbered_eq, ← Stream.get_relocate,
      second.relocate_numbered]

end Grammar
end MarmosetLang
