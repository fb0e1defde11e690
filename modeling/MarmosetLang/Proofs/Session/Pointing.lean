import MarmosetLang.Proofs.Grammar.Order
import MarmosetLang.Proofs.Session.Reporting
import MarmosetLang.Proofs.Text.Place
import MarmosetLang.Proofs.Token.Partition

/-!
# Where pictures point

A picture of an issue marks a row and a column of the text.  They lead back to the token that the
issue is about: the character there is the first one of the token, or the place is the end of the
text.
-/

namespace MarmosetLang

/-! ## The first character of a token -/

/-- The character with which a token begins in the text: the opening quote of a quoted text, and
the first one of its literal otherwise. -/
def Token.first? (token : Token) : Option Char :=
  if token.kind = .string then some '"' else token.literal.toList.head?

/-- A lexeme begins as its token does. -/
theorem Pattern.Gives.first?_eq {pattern : Pattern} {first : Char} {more literal : List Char}
    {kind : Kind} (gives : pattern.Gives (first :: more) kind literal) (offset : Nat) :
    (⟨kind, String.ofList literal, offset⟩ : Token).first? = some first := by
  rw [Token.first?]
  split
  · rename_i is_string
    dsimp only at is_string
    subst is_string
    obtain ⟨-, closed | ⟨-, unclosed⟩⟩ := gives.quoted
    · rw [(List.cons.inj closed).1]
    · rw [(List.cons.inj unclosed).1]
  · rename_i ne_string
    rw [← gives.lexeme_eq ne_string, String.toList_ofList, List.head?_cons]

/-- Where a token of a tiled text stands, there is its first character, which is no layout. -/
theorem Tiled.exists_first {offset : Nat} {text : List Char} {tokens : List Token}
    (tiled : Tiled offset text tokens) :
    ∀ token ∈ tokens, ∃ first, token.first? = some first ∧
      text[token.offset - offset]? = some first ∧ isLayout first = false := by
  induction tiled with
  | nil => exact List.forall_mem_nil _
  | @layout offset first rest tokens blank tiled ih =>
      intro token member
      obtain ⟨begins, first_eq, found, visible⟩ := ih token member
      have behind := (tiled.ordered.2 token member).1
      have index_eq : token.offset - offset = token.offset - (offset + 1) + 1 := by omega
      exact ⟨begins, first_eq, by rw [index_eq, List.getElem?_cons_succ, found], visible⟩
  | @lexeme offset pattern lexeme rest literal kind tokens longest gives tiled ih =>
      refine List.forall_mem_cons.mpr ⟨?_, fun token member => ?_⟩
      · obtain ⟨first, more, rfl⟩ := List.exists_cons_of_ne_nil longest.lexeme_ne_nil
        refine ⟨first, gives.first?_eq offset, ?_, longest.visible gives⟩
        rw [Nat.sub_self]
        rfl
      · obtain ⟨begins, first_eq, found, visible⟩ := ih token member
        have behind := (tiled.ordered.2 token member).1
        have index_eq : token.offset - offset =
            lexeme.length + (token.offset - (offset + lexeme.length)) := by omega
        refine ⟨begins, first_eq, ?_, visible⟩
        rw [index_eq, List.getElem?_append_right (Nat.le_add_right _ _), Nat.add_sub_cancel_left,
          found]

theorem Token.exists_first {text : String} {token : Token} (member : token ∈ Token.scan text) :
    ∃ first, token.first? = some first ∧ text.toList[token.offset]? = some first ∧
      first ≠ '\r' ∧ first ≠ '\n' := by
  obtain ⟨first, first_eq, found, visible⟩ :=
    (tiled_scanFrom 0 text.toList).exists_first token member
  refine ⟨first, first_eq, found, ?_, ?_⟩
  · rintro rfl
    exact absurd visible (by decide)
  · rintro rfl
    exact absurd visible (by decide)

/-! ## Marks -/

/-- The place at which a mark is drawn. -/
def Mark.place (mark : Mark) : Line.Place :=
  Line.locate mark.source mark.offset

/-- The place at which a mark is drawn leads back to a token. -/
structure Mark.PointsAt (mark : Mark) (token : Token) : Prop where
  /-- The line of the place is drawn with the number of its row in front, and the column is the room
  in front of the carets. -/
  drawn : mark.render = String.ofList
    (gutter mark.place.row ++ dropBlanksRight mark.place.line ++ '\n' ::
      (gutter mark.place.row ++ mark.place.line.take mark.place.column).map roomOf ++
      List.replicate (carets mark.place mark.width) '^' ++ [' ']) ++ mark.caption
  /-- The start of the row and the column make up the offset of the token. -/
  leads : mark.place.LeadsTo (Line.split mark.source.toList) token.offset
  /-- The character there is the first one of the token, and no line break. -/
  begins : token.kind ≠ .eof → ∃ first, token.first? = some first ∧
    mark.place.line[mark.place.column]? = some first ∧ first ≠ '\r' ∧ first ≠ '\n'
  /-- The end is behind the last character of the last line. -/
  ends : token.kind = .eof → token.offset = mark.source.length ∧
    mark.place.row = (Line.split mark.source.toList).length ∧
    mark.place.column = mark.place.line.length

namespace Report

/-- The mark in the picture of an issue. -/
def markOf (source : String) (path : Option PathName) (issue : Issue) : Mark :=
  ⟨source, path, issue.token.offset, issue.token.width, "got confused here"⟩

theorem pictureOf_eq (source : String) (path : Option PathName) (issue : Issue) :
    pictureOf source path issue = ⟨issue.message, [markOf source path issue], []⟩ := rfl

theorem pointsAt_markOf {text : String} {issue : Issue} (path : Option PathName)
    (place : issue.token ∈ Token.scan text ∨ issue.token = Token.endOf text.length) :
    (markOf text path issue).PointsAt issue.token := by
  have leads := Line.leadsTo_locate text issue.token.offset
  have length_eq : (Line.split text.toList).flatten.length = text.length := by
    rw [Line.flatten_split, String.length_toList]
  refine ⟨?_, leads, fun not_end => ?_, fun is_end => ?_⟩
  · rw [Mark.render, Mark.place]
  · have member := place.resolve_right fun ended => not_end (ended ▸ rfl)
    obtain ⟨first, first_eq, found, unbroken⟩ := Token.exists_first member
    obtain ⟨inside, -⟩ := List.getElem?_eq_some_iff.mp found
    rw [← Line.flatten_split text.toList] at inside found
    exact ⟨first, first_eq, (leads.getElem?_column inside).trans found, unbroken⟩
  · have ended : issue.token = Token.endOf text.length := by
      refine place.resolve_left fun member => ?_
      exact (Stream.ofText text).kind_ne_eof _ member is_end
    have offset_eq : issue.token.offset = text.length := congrArg Token.offset ended
    exact ⟨offset_eq, leads.last_of_end (offset_eq.trans length_eq.symm)⟩

/-- Parsing a text adds pictures of its issues to a report, up to the one that reaches the limit. -/
theorem exists_pictures_parse {text : String} {parsed : Parsed}
    (parse_eq : Grammar.parseText text = .ok parsed) (path : Option PathName) (report : Report) :
    ∃ count, (parse text path report).2.pictures =
        report.pictures ++ (parsed.issues.map (pictureOf text path)).take count ∧
      (report.limit = none → parsed.issues.length ≤ count) := by
  by_cases clean : parsed.issues = []
  · refine ⟨0, ?_, fun _ => Nat.le_of_eq (congrArg List.length clean)⟩
    rw [parse_of_clean parse_eq clean, noting_eq_said, List.take_zero, List.append_nil]
  · by_cases reached : ∃ count, 0 < count ∧ count ≤ parsed.issues.length ∧ report.ReachesAt count
    · obtain ⟨count, positive, le, reaches⟩ := reached
      refine ⟨count, ?_, fun unlimited => ?_⟩
      · rw [parse_of_reachesAt parse_eq reaches positive le]
        rfl
      · exact absurd reaches (not_reachesAt_of_unlimited unlimited count)
    · refine ⟨parsed.issues.length, ?_, fun _ => Nat.le_refl _⟩
      have apart (count : Nat) (positive : 0 < count) (le : count ≤ parsed.issues.length) :
          ¬report.ReachesAt count :=
        fun reaches => reached ⟨count, positive, le, reaches⟩
      rw [parse_of_apart parse_eq clean apart, ← List.length_map (pictureOf text path),
        List.take_length]
      rfl

/-- The pictures that parsing a text adds to a report are those of its issues, as far as the limit
of the report allows.  Each has one mark, and the place at which it is drawn, on the lines into
which the text breaks, leads back to the token of the issue. -/
theorem pictures_point_at_tokens (text : String) (short : (Stream.ofText text).Short)
    (path : Option PathName) (report : Report) :
    Line.Breaks text.toList (Line.split text.toList) ∧
    ∃ parsed count, Grammar.parseText text = .ok parsed ∧
      (parse text path report).2.pictures =
        report.pictures ++ (parsed.issues.map (pictureOf text path)).take count ∧
      (report.limit = none → parsed.issues.length ≤ count) ∧
      ∀ issue ∈ parsed.issues, ∃ mark,
        pictureOf text path issue = ⟨issue.message, [mark], []⟩ ∧ mark.source = text ∧
          mark.PointsAt issue.token := by
  obtain ⟨parsed, parse_eq⟩ := Grammar.exists_parse_eq short
  obtain ⟨count, pictures_eq, all_of_unlimited⟩ := exists_pictures_parse parse_eq path report
  refine ⟨Line.breaks_split text.toList, parsed, count, parse_eq, pictures_eq, all_of_unlimited,
    fun issue member => ?_⟩
  have place := Grammar.mem_of_parse parse_eq issue member
  exact ⟨_, pictureOf_eq text path issue, rfl, pointsAt_markOf path place⟩

/-- An issue about a quoted text on the second line, and one about the end on the third. -/
theorem pictures_point_at_tokens_sample :
    let text := "let a = 1;\r\nlet \"b\";\n["
    let report := Report.empty false none 0
    (Stream.ofText text).Short ∧ ∃ parsed, Grammar.parseText text = .ok parsed ∧
      parsed.issues = [⟨.expected .identifier, ⟨.string, "b", 16⟩⟩, ⟨.noExpression, .endOf 22⟩] ∧
      (parse text none report).2.pictures = parsed.issues.map (pictureOf text none) ∧
      ∀ issue ∈ parsed.issues, (markOf text none issue).PointsAt issue.token := by
  intro text report
  have short : (Stream.ofText text).Short := by
    change ∀ token ∈ Token.scan _, _
    decide +kernel
  obtain ⟨-, parsed, count, parse_eq, pictures_eq, all, points⟩ :=
    pictures_point_at_tokens text short none report
  have issues_eq : parsed.issues =
      [⟨.expected .identifier, ⟨.string, "b", 16⟩⟩, ⟨.noExpression, .endOf 22⟩] := by
    have found : (Grammar.parseText text).toOption.map Parsed.issues = some
        [⟨.expected .identifier, ⟨.string, "b", 16⟩⟩, ⟨.noExpression, .endOf 22⟩] := by
      decide +kernel
    rw [parse_eq] at found
    exact Option.some.inj found
  refine ⟨short, parsed, parse_eq, issues_eq, ?_, fun issue member => ?_⟩
  · rw [pictures_eq, List.take_of_length_le ((List.length_map _).trans_le (all rfl))]
    rfl
  · obtain ⟨mark, picture_eq, -, mark_points⟩ := points issue member
    rw [pictureOf_eq, Picture.mk.injEq, List.cons.injEq] at picture_eq
    exact picture_eq.2.1.1 ▸ mark_points

end Report
end MarmosetLang
