import MarmosetLang.Proofs.Token.Tiling

/-!
# Partitions

Scanning loses nothing.  A text falls into pieces, one a token, each with the layout before it, and
into layout after the last of them.  Where a piece stands tells its lexeme, and its lexeme tells the
token.
-/

namespace MarmosetLang

namespace Pattern

variable {pattern : Pattern} {lexeme literal rest : List Char} {kind : Kind}

/-- Only quoted texts carry less than their lexeme. -/
theorem Gives.lexeme_eq (gives : pattern.Gives lexeme kind literal) (ne_string : kind ≠ .string) :
    lexeme = literal := by
  cases gives with
  | keyword | identifier | integer | glyph | illegal => rfl
  | unclosed | closed => exact absurd rfl ne_string

theorem kind_ne_of_mem_keywords {word : String} (listed : (word, kind) ∈ Kind.keywords) :
    kind ≠ .identifier ∧ kind ≠ .integer ∧ kind ≠ .string ∧ kind ≠ .illegal ∧
      kind ∉ Kind.glyphs := by
  have all : ∀ entry ∈ Kind.keywords, entry.2 ≠ .identifier ∧ entry.2 ≠ .integer ∧
      entry.2 ≠ .string ∧ entry.2 ≠ .illegal ∧ entry.2 ∉ Kind.glyphs := by decide
  exact all _ listed

theorem kind_ne_of_mem_glyphs (listed : kind ∈ Kind.glyphs) :
    kind ≠ .string ∧ kind ≠ .illegal := by
  revert kind
  decide

/-- A quoted text stands between two quotes, or else it has only the first of them. -/
theorem Gives.quoted (gives : pattern.Gives lexeme .string literal) :
    '"' ∉ literal ∧
      (lexeme = '"' :: (literal ++ ['"']) ∨ pattern = .quoted ∧ lexeme = '"' :: literal) := by
  generalize kind_eq : Kind.string = kind at gives
  cases gives with
  | keyword listed => exact absurd kind_eq.symm (kind_ne_of_mem_keywords listed).2.2.1
  | glyph listed => exact absurd kind_eq.symm (kind_ne_of_mem_glyphs listed).1
  | identifier | integer | illegal => exact nomatch kind_eq
  | unclosed no_quote => exact ⟨no_quote, .inr ⟨rfl, rfl⟩⟩
  | closed no_quote => exact ⟨no_quote, .inl rfl⟩

/-- Only the last rule makes illegal tokens. -/
theorem Gives.eq_any (gives : pattern.Gives lexeme .illegal literal) : pattern = .any := by
  generalize kind_eq : Kind.illegal = kind at gives
  cases gives with
  | keyword listed => exact absurd kind_eq.symm (kind_ne_of_mem_keywords listed).2.2.2.1
  | glyph listed => exact absurd kind_eq.symm (kind_ne_of_mem_glyphs listed).2
  | identifier | integer | unclosed | closed => exact nomatch kind_eq
  | illegal => rfl

/-- Without its closing quote a quoted text reaches to the end. -/
theorem Longest.rest_eq_nil {body : List Char} (longest : Longest .quoted ('"' :: body) rest)
    (no_quote : '"' ∉ body) : rest = [] := by
  cases rest with
  | nil => rfl
  | cons next rest =>
      have stop : ¬ Matches .quoted ('"' :: body ++ [next]) := longest.not_matches_next rfl
      refine absurd ?_ stop
      by_cases closing : next = '"'
      · rw [closing]
        exact .closed no_quote
      · refine .unclosed fun member => ?_
        rcases List.mem_append.mp member with inside | last
        · exact no_quote inside
        · exact closing (List.mem_singleton.mp last).symm

/-- What the last rule takes is a single character, and no other rule takes any text there. -/
theorem Longest.alone (longest : Longest .any lexeme rest) :
    ∃ c, lexeme = [c] ∧ ∀ (other : Pattern) (taken : List Char), other ≠ .any →
      other.Matches taken → ¬ taken <+: lexeme ++ rest := by
  cases longest.taken with
  | any =>
      rename_i c
      refine ⟨c, rfl, fun other taken ne_any matched beginning => ?_⟩
      rcases List.prefix_cons_iff.mp beginning with rfl | ⟨more, rfl, -⟩
      · exact matched.ne_nil rfl
      · rcases matched.eq_ofFirst with other_eq | ⟨other_eq, -⟩
        · exact ne_any (other_eq.trans longest.pattern_eq.symm)
        · exact ne_any other_eq

/-- A lexeme gives a keyword exactly if it is spelt like one. -/
theorem Longest.kind_eq_iff (longest : Longest pattern lexeme rest)
    (gives : pattern.Gives lexeme kind literal) {word : String} {keyword : Kind}
    (listed : (word, keyword) ∈ Kind.keywords) : kind = keyword ↔ lexeme = word.toList := by
  constructor
  · rintro rfl
    obtain ⟨ne_identifier, ne_integer, ne_string, ne_illegal, no_glyph⟩ :=
      kind_ne_of_mem_keywords listed
    cases gives with
    | keyword other_listed =>
        have all : ∀ entry ∈ Kind.keywords, ∀ other ∈ Kind.keywords, entry.2 = other.2 →
            entry.1 = other.1 := by decide
        have word_eq : String.ofList lexeme = word := all _ other_listed _ listed rfl
        rw [← word_eq, String.toList_ofList]
    | identifier => exact absurd rfl ne_identifier
    | integer => exact absurd rfl ne_integer
    | unclosed | closed => exact absurd rfl ne_string
    | glyph is_glyph => exact absurd is_glyph no_glyph
    | illegal => exact absurd rfl ne_illegal
  · rintro rfl
    have all : ∀ entry ∈ Kind.keywords, entry.1.toList.head?.map ofFirst = some .word := by decide
    have head_eq := all _ listed
    obtain ⟨first, more, word_eq⟩ := List.exists_cons_of_ne_nil longest.lexeme_ne_nil
    rw [word_eq] at head_eq
    have first_word : ofFirst first = .word := Option.some.inj head_eq
    have pattern_eq : pattern = .word := (word_eq ▸ longest).pattern_eq.trans first_word
    subst pattern_eq
    have listed_again : (String.ofList word.toList, keyword) ∈ Kind.keywords := by
      rwa [String.ofList_toList]
    exact (gives.unique (.keyword listed_again)).1

end Pattern

/-- A token with the characters it is made of and the layout before them. -/
structure Piece where
  /-- The layout. -/
  gap : List Char
  /-- The characters of the token, quotes included. -/
  lexeme : List Char
  /-- The token. -/
  token : Token

namespace Piece

/-- The text that some pieces make up. -/
def text (pieces : List Piece) : List Char :=
  pieces.flatMap fun piece => piece.gap ++ piece.lexeme

@[simp]
theorem text_nil : text [] = [] := rfl

@[simp]
theorem text_cons (piece : Piece) (pieces : List Piece) :
    text (piece :: pieces) = piece.gap ++ piece.lexeme ++ text pieces := by
  simp [text]

/-- A piece stands at its place, between the pieces before it and the text after it. -/
structure Stands (start : Nat) (before : List Piece) (piece : Piece) (rest : List Char) :
    Prop where
  /-- Before the lexeme there is only layout. -/
  blank : ∀ c ∈ piece.gap, isLayout c = true
  /-- The offset counts all that comes before the lexeme. -/
  offset_eq : piece.token.offset = start + (text before).length + piece.gap.length
  /-- The lexeme is the longest that any rule takes there, and the token is the one that the
  earliest of those rules makes of it. -/
  longest : ∃ pattern : Pattern, pattern.Longest piece.lexeme rest ∧
    pattern.Gives piece.lexeme piece.token.kind piece.token.literal.toList

/-- Pieces before which another one is put keep their places. -/
theorem Stands.cons {start : Nat} {before : List Piece} {piece first : Piece} {rest : List Char}
    (stands : Stands (start + first.gap.length + first.lexeme.length) before piece rest) :
    Stands start (first :: before) piece rest where
  blank := stands.blank
  offset_eq := by
    rw [stands.offset_eq, text_cons, List.length_append, List.length_append]
    omega
  longest := stands.longest

end Piece

/-- A text that begins `start` characters into the whole falls into pieces, one for each of its
tokens, and the layout after the last of them. -/
structure Partition (start : Nat) (text : List Char) (tokens : List Token) (pieces : List Piece)
    (trailing : List Char) : Prop where
  /-- The tokens are those of the pieces. -/
  tokens_eq : pieces.map Piece.token = tokens
  /-- Nothing of the text is lost. -/
  text_eq : Piece.text pieces ++ trailing = text
  /-- After the last piece there is only layout. -/
  blank : ∀ c ∈ trailing, isLayout c = true
  /-- Later lexemes begin further on, where earlier ones have ended. -/
  ordered : pieces.Pairwise fun earlier later =>
    earlier.token.offset < later.token.offset ∧
      earlier.token.offset + earlier.lexeme.length ≤ later.token.offset
  /-- Every piece stands at its place. -/
  stands : ∀ (before : List Piece) (piece : Piece) (after : List Piece),
    pieces = before ++ piece :: after → piece.Stands start before (Piece.text after ++ trailing)

namespace Partition

variable {start : Nat} {text trailing : List Char} {tokens : List Token} {pieces : List Piece}

theorem nil (blank : ∀ c ∈ trailing, isLayout c = true) :
    Partition start trailing [] [] trailing where
  tokens_eq := rfl
  text_eq := rfl
  blank := blank
  ordered := .nil
  stands before piece after split := by
    cases before <;> exact nomatch split

theorem offset_le (partition : Partition start text tokens pieces trailing) {piece : Piece}
    (member : piece ∈ pieces) : start ≤ piece.token.offset := by
  obtain ⟨before, after, split⟩ := List.append_of_mem member
  have offset_eq := (partition.stands before piece after split).offset_eq
  omega

/-- A lexeme with layout before it is one piece more. -/
theorem cons {first : Piece} {pattern : Pattern}
    (partition : Partition (start + first.gap.length + first.lexeme.length) text tokens pieces
      trailing)
    (blank : ∀ c ∈ first.gap, isLayout c = true)
    (offset_eq : first.token.offset = start + first.gap.length)
    (longest : pattern.Longest first.lexeme text)
    (gives : pattern.Gives first.lexeme first.token.kind first.token.literal.toList) :
    Partition start (first.gap ++ (first.lexeme ++ text)) (first.token :: tokens) (first :: pieces)
      trailing where
  tokens_eq := by rw [List.map_cons, partition.tokens_eq]
  text_eq := by
    rw [Piece.text_cons, List.append_assoc, partition.text_eq, List.append_assoc]
  blank := partition.blank
  ordered := by
    refine .cons (fun later member => ?_) partition.ordered
    have later_le := partition.offset_le member
    have length_pos := List.length_pos_iff.mpr longest.lexeme_ne_nil
    omega
  stands before piece after split := by
    rcases List.cons_eq_append_iff.mp split with ⟨rfl, same⟩ | ⟨before, rfl, same⟩
    · obtain ⟨rfl, rfl⟩ := List.cons.inj same
      exact ⟨blank, offset_eq, pattern, partition.text_eq ▸ longest, gives⟩
    · exact (partition.stands before piece after same).cons

end Partition

/-- Layout before a tiled text belongs to its first piece. -/
theorem Tiled.exists_partition {offset : Nat} {text : List Char} {tokens : List Token}
    (tiled : Tiled offset text tokens) {start : Nat} {gap : List Char}
    (blank : ∀ c ∈ gap, isLayout c = true) (offset_eq : offset = start + gap.length) :
    ∃ pieces trailing, Partition start (gap ++ text) tokens pieces trailing := by
  induction tiled generalizing start gap with
  | nil =>
      rw [List.append_nil]
      exact ⟨[], gap, .nil blank⟩
  | @layout offset first rest tokens first_blank tiled ih =>
      have gap_blank : ∀ c ∈ gap ++ [first], isLayout c = true := by
        intro c member
        rcases List.mem_append.mp member with inside | last
        · exact blank c inside
        · exact List.mem_singleton.mp last ▸ first_blank
      have length_eq : offset + 1 = start + (gap ++ [first]).length := by
        simp [offset_eq, Nat.add_assoc]
      have partition := ih gap_blank length_eq
      rwa [List.append_assoc, List.singleton_append] at partition
  | @lexeme offset pattern lexeme rest literal kind tokens longest gives tiled ih =>
      subst offset_eq
      have start_eq : start + gap.length + lexeme.length =
          start + gap.length + lexeme.length + ([] : List Char).length := rfl
      obtain ⟨pieces, trailing, partition⟩ := ih (by simp) start_eq
      let first : Piece := ⟨gap, lexeme, kind, String.ofList literal, start + gap.length⟩
      have literal_gives : pattern.Gives lexeme kind (String.ofList literal).toList := by
        rwa [String.toList_ofList]
      have whole : Partition start (first.gap ++ (first.lexeme ++ rest)) (first.token :: tokens)
          (first :: pieces) trailing := partition.cons blank rfl longest literal_gives
      exact ⟨first :: pieces, trailing, whole⟩

/-- A text falls into pieces that make it up again, one for each token that scanning finds in it.
The lexemes are not empty, and each is the literal of its token, a quoted one up to its quotes; only
at the end of the text the closing one may be missing.  What is illegal begins nothing else, and
keywords are told by their spelling.  After the last token comes the end, for ever. -/
theorem exists_partition_ofText (text : String) :
    ∃ (pieces : List Piece) (trailing : List Char),
      Partition 0 text.toList (Stream.ofText text).tokens pieces trailing ∧
      (∀ (before : List Piece) (piece : Piece) (after : List Piece),
        pieces = before ++ piece :: after →
          piece.lexeme ≠ [] ∧
          (piece.token.kind ≠ .string → piece.lexeme = piece.token.literal.toList) ∧
          (piece.token.kind = .string →
            '"' ∉ piece.token.literal.toList ∧
              (piece.lexeme = '"' :: (piece.token.literal.toList ++ ['"']) ∨
                piece.lexeme = '"' :: piece.token.literal.toList ∧ after = [] ∧ trailing = [])) ∧
          (piece.token.kind = .illegal →
            ∃ c, piece.lexeme = [c] ∧ ∀ (other : Pattern) (taken : List Char), other ≠ .any →
              other.Matches taken →
                ¬ taken <+: piece.lexeme ++ (Piece.text after ++ trailing)) ∧
          ∀ (word : String) (keyword : Kind), (word, keyword) ∈ Kind.keywords →
            (piece.token.kind = keyword ↔ piece.lexeme = word.toList)) ∧
      ∀ distance, (Stream.ofText text).length ≤ distance →
        (Stream.ofText text).get distance = ⟨.eof, "", text.length⟩ := by
  have start_eq : 0 = 0 + ([] : List Char).length := rfl
  obtain ⟨pieces, trailing, partition⟩ :=
    (tiled_scanFrom 0 text.toList).exists_partition (by simp) start_eq
  have nonempty {before : List Piece} {piece : Piece} {after : List Piece}
      (split : pieces = before ++ piece :: after) : piece.lexeme ≠ [] := by
    obtain ⟨pattern, longest, -⟩ := (partition.stands before piece after split).longest
    exact longest.lexeme_ne_nil
  refine ⟨pieces, trailing, partition, fun before piece after split => ?_, ?_⟩
  · obtain ⟨pattern, longest, gives⟩ := (partition.stands before piece after split).longest
    refine ⟨longest.lexeme_ne_nil, gives.lexeme_eq, fun is_string => ?_, fun illegal => ?_,
      fun word keyword listed => longest.kind_eq_iff gives listed⟩
    · rw [is_string] at gives
      obtain ⟨no_quote, closed | ⟨rfl, unclosed⟩⟩ := gives.quoted
      · exact ⟨no_quote, .inl closed⟩
      · rw [unclosed] at longest
        obtain ⟨after_empty, trailing_empty⟩ :=
          List.append_eq_nil_iff.mp (longest.rest_eq_nil no_quote)
        refine ⟨no_quote, .inr ⟨unclosed, ?_, trailing_empty⟩⟩
        cases after with
        | nil => rfl
        | cons next after =>
            have next_split : pieces = (before ++ [piece]) ++ next :: after := by simp [split]
            rw [Piece.text_cons, List.append_eq_nil_iff, List.append_eq_nil_iff] at after_empty
            exact absurd after_empty.1.2 (nonempty next_split)
    · rw [illegal] at gives
      obtain rfl := gives.eq_any
      exact longest.alone
  · intro distance beyond
    rw [Stream.get, List.getD_eq_getElem?_getD, List.getElem?_eq_none beyond]
    rfl

end MarmosetLang
