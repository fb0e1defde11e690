import MarmosetLang.Proofs.Token.Tiling

/-!
# Spacing

Scanning undoes spelling.  However much layout stands between tokens, as long as there is some, the
longest lexeme at the place of a token is its own spelling: no rule takes layout together with
anything else, but for the one for quoted texts, and that one stops at the closing quote.
-/

namespace MarmosetLang

namespace Kind

/-- The literals that the tokens of a kind may have. -/
inductive Carries : Kind → List Char → Prop where
  | keyword {kind : Kind} {word : String} (listed : (word, kind) ∈ keywords) :
      Carries kind word.toList
  | glyph {kind : Kind} (listed : kind ∈ glyphs) : Carries kind kind.name.toList
  | identifier {text : List Char} (nonempty : text ≠ [])
      (letters : ∀ c ∈ text, isLetter c = true)
      (unlisted : ∀ kind, (String.ofList text, kind) ∉ keywords) : Carries .identifier text
  | integer {text : List Char} (nonempty : text ≠ []) (digits : ∀ c ∈ text, c.isDigit = true) :
      Carries .integer text
  | string {text : List Char} (no_quote : '"' ∉ text) : Carries .string text
  | illegal {c : Char}
      (alone : ∀ pattern, pattern ≠ .any → ∀ more, ¬ Pattern.Matches pattern (c :: more)) :
      Carries .illegal [c]

theorem ne_string_of_mem_keywords {kind : Kind} {word : String}
    (listed : (word, kind) ∈ keywords) : kind ≠ .string := by
  have all : ∀ entry ∈ keywords, entry.2 ≠ .string := by decide
  exact all _ listed

theorem ne_string_of_mem_glyphs {kind : Kind} (listed : kind ∈ glyphs) : kind ≠ .string := by
  revert kind
  decide

end Kind

namespace Pattern

/-! ## Lexemes before layout -/

theorem visible_of_mem_glyphs {kind : Kind} (listed : kind ∈ Kind.glyphs) :
    ∀ c ∈ kind.name.toList, isLayout c = false := by
  have all : ∀ kind ∈ Kind.glyphs, kind.name.toList.all (!isLayout ·) = true := by decide +kernel
  simpa using all kind listed

/-- Words, numerals and glyphs hold no layout. -/
theorem Matches.visible {pattern : Pattern} {text : List Char} (taken : pattern.Matches text)
    (listed : pattern ∈ [.word, .numeral, .glyph]) : ∀ c ∈ text, isLayout c = false := by
  intro c member
  cases taken with
  | word _ letters =>
      refine Bool.eq_false_iff.mpr fun blank => ?_
      exact Bool.false_ne_true ((isLetter_eq_false_of_isLayout blank).symm.trans (letters c member))
  | numeral _ digits =>
      refine Bool.eq_false_iff.mpr fun blank => ?_
      exact Bool.false_ne_true ((isDigit_eq_false_of_isLayout blank).symm.trans (digits c member))
  | glyph is_glyph => exact visible_of_mem_glyphs is_glyph c member
  | layout | unclosed | closed | any => exact absurd listed (by decide)

/-- Words, numerals and glyphs end where layout begins. -/
theorem longest_of_blank {pattern : Pattern} {text rest : List Char}
    (taken : pattern.Matches text) (listed : pattern ∈ [.word, .numeral, .glyph])
    (blank : ∀ next ∈ rest.head?, isLayout next = true) : Longest pattern text rest := by
  obtain ⟨first, more, rfl⟩ := List.exists_cons_of_ne_nil taken.ne_nil
  rcases taken.eq_ofFirst with pattern_eq | ⟨rfl, -⟩
  · refine longest_of_next pattern_eq.symm taken fun next ahead longer_taken => ?_
    have visible := longer_taken.visible listed next (by simp)
    exact Bool.false_ne_true (visible.symm.trans (blank next ahead))
  · exact absurd listed (by decide)

end Pattern

theorem Kind.Carries.of_ofFirst {c : Char} (ofFirst_eq : Pattern.ofFirst c = .any) :
    Kind.Carries .illegal [c] := by
  refine .illegal fun pattern ne_any more taken => ?_
  rcases taken.eq_ofFirst with pattern_eq | ⟨pattern_eq, -⟩
  · exact ne_any (pattern_eq.trans ofFirst_eq)
  · exact ne_any pattern_eq

/-! ## The literals of scanned tokens -/

/-- What a rule makes of the longest lexeme is a token with a literal that its kind may have. -/
theorem Pattern.Longest.carries {pattern : Pattern} {lexeme rest literal : List Char} {kind : Kind}
    (longest : pattern.Longest lexeme rest) (gives : pattern.Gives lexeme kind literal) :
    kind.Carries literal := by
  cases gives with
  | @keyword text kind listed =>
      have carries := Kind.Carries.keyword listed
      rwa [String.toList_ofList] at carries
  | identifier unlisted =>
      have letters := ((Lexeme.matches_word_iff _).mp longest.taken).2
      exact .identifier longest.lexeme_ne_nil letters unlisted
  | integer =>
      exact .integer longest.lexeme_ne_nil ((Lexeme.matches_numeral_iff _).mp longest.taken).2
  | unclosed no_quote | closed no_quote => exact .string no_quote
  | glyph listed => exact .glyph listed
  | illegal =>
      obtain ⟨first, more, rfl⟩ := List.exists_cons_of_ne_nil longest.lexeme_ne_nil
      have ofFirst_eq := longest.pattern_eq.symm
      cases longest.taken
      exact .of_ofFirst ofFirst_eq

theorem Tiled.carries {offset : Nat} {text : List Char} {tokens : List Token}
    (tiled : Tiled offset text tokens) :
    ∀ token ∈ tokens, token.kind.Carries token.literal.toList := by
  induction tiled with
  | nil => exact List.forall_mem_nil _
  | layout _ _ ih => exact ih
  | lexeme longest gives _ ih =>
      refine List.forall_mem_cons.mpr ⟨?_, ih⟩
      rw [String.toList_ofList]
      exact longest.carries gives

/-- Every token of a text has a literal that its kind may have. -/
theorem Token.carries_of_mem_scan {text : String} {token : Token} (member : token ∈ scan text) :
    token.kind.Carries token.literal.toList :=
  (tiled_scanFrom 0 text.toList).carries token member

namespace Kind.Carries

variable {kind : Kind} {literal : List Char}

/-- A glyph is written as its name. -/
theorem eq_of_mem_glyphs (carries : kind.Carries literal) (listed : kind ∈ glyphs) :
    literal = kind.name.toList := by
  cases carries with
  | keyword is_keyword =>
      have apart : ∀ entry ∈ keywords, entry.2 ∉ glyphs := by decide
      exact absurd listed (apart _ is_keyword)
  | glyph => rfl
  | identifier | integer | string | illegal => exact absurd listed (by decide)

/-- A keyword is written in the one way that it has. -/
theorem eq_of_mem_keywords (carries : kind.Carries literal) {word : String}
    (listed : (word, kind) ∈ keywords) : literal = word.toList := by
  have apart : ∀ entry ∈ keywords,
      entry.2 ∉ glyphs ∧ entry.2 ∉ [.identifier, .integer, .string, .illegal] := by decide
  cases carries with
  | keyword other_listed =>
      have same_word : ∀ entry ∈ keywords, ∀ other ∈ keywords, entry.2 = other.2 →
          entry.1 = other.1 := by decide
      exact congrArg String.toList (same_word _ other_listed _ listed rfl)
  | glyph is_glyph => exact absurd is_glyph (apart _ listed).1
  | identifier | integer | string | illegal => exact absurd (apart _ listed).2 (by simp)

end Kind.Carries

/-- A token as it is to be written, wherever it may come to stand. -/
structure Written where
  /-- The kind of the token. -/
  kind : Kind
  /-- The text that the token carries. -/
  literal : String
  /-- Tokens of that kind may carry it. -/
  carries : kind.Carries literal.toList

namespace Written

open Pattern

/-- The characters of a token: its literal, between quotes if it is a quoted text. -/
def spelling (written : Written) : List Char :=
  if written.kind = .string then '"' :: (written.literal.toList ++ ['"'])
  else written.literal.toList

/-- The text of some tokens with the given layout after each of them. -/
def spaced (line : List (Written × List Char)) : List Char :=
  line.flatMap fun item => item.1.spelling ++ item.2

@[simp]
theorem spaced_cons (written : Written) (gap : List Char) (line : List (Written × List Char)) :
    spaced ((written, gap) :: line) = written.spelling ++ (gap ++ spaced line) := by
  simp [spaced]

theorem spelling_eq {kind : Kind} {literal : String} {carries : kind.Carries literal.toList}
    (ne_string : kind ≠ .string) : spelling ⟨kind, literal, carries⟩ = literal.toList :=
  if_neg ne_string

/-- Before layout and at the end of a text, the spelling of a token is the longest lexeme, and the
token is what its rule makes of it. -/
theorem exists_longest (written : Written) {rest : List Char}
    (blank : ∀ next ∈ rest.head?, isLayout next = true) :
    ∃ pattern : Pattern, pattern.Longest written.spelling rest ∧
      pattern.Gives written.spelling written.kind written.literal.toList := by
  obtain ⟨kind, literal, carries⟩ := written
  dsimp only
  have carried := carries
  generalize text_eq : literal.toList = text at carried
  cases carried with
  | keyword listed =>
      rename_i word
      have all : ∀ entry ∈ Kind.keywords, entry.1.toList ≠ [] ∧
          entry.1.toList.all isLetter = true := by decide
      obtain ⟨nonempty, all_letters⟩ := all _ listed
      have letters : ∀ c ∈ word.toList, isLetter c = true := List.all_eq_true.mp all_letters
      rw [spelling_eq (Kind.ne_string_of_mem_keywords listed), text_eq]
      refine ⟨.word, longest_of_blank (.word nonempty letters) (by decide) blank, .keyword ?_⟩
      rwa [String.ofList_toList]
  | glyph listed =>
      rw [spelling_eq (Kind.ne_string_of_mem_glyphs listed), text_eq]
      exact ⟨.glyph, longest_of_blank (.glyph listed) (by decide) blank, .glyph listed⟩
  | identifier nonempty letters unlisted =>
      have ne_string : Kind.identifier ≠ .string := nofun
      rw [spelling_eq ne_string, text_eq]
      exact ⟨.word, longest_of_blank (.word nonempty letters) (by decide) blank,
        .identifier unlisted⟩
  | integer nonempty digits =>
      have ne_string : Kind.integer ≠ .string := nofun
      rw [spelling_eq ne_string, text_eq]
      exact ⟨.numeral, longest_of_blank (.numeral nonempty digits) (by decide) blank, .integer⟩
  | string no_quote =>
      have spelling_eq : spelling ⟨.string, literal, carries⟩ = '"' :: (text ++ ['"']) := by
        rw [spelling, if_pos rfl, text_eq]
      rw [spelling_eq]
      have ofFirst_eq : ofFirst '"' = .quoted := by decide
      exact ⟨.quoted, longest_of_next ofFirst_eq (.closed no_quote) fun _ _ =>
        Lexeme.not_matches_closed_append, .closed no_quote⟩
  | illegal alone =>
      rename_i c
      have ne_string : Kind.illegal ≠ .string := nofun
      rw [spelling_eq ne_string, text_eq]
      have ofFirst_eq : ofFirst c = .any := by
        by_contra other
        exact alone _ other [] (matches_ofFirst c)
      exact ⟨.any, longest_of_next ofFirst_eq .any fun _ _ => nofun, .illegal⟩

/-- Where each token but the last is followed by layout, what follows a token begins with layout. -/
theorem blank_of_head? {gap : List Char} {line : List (Written × List Char)}
    (blank : ∀ c ∈ gap, isLayout c = true) (parted : line ≠ [] → gap ≠ []) :
    ∀ next ∈ (gap ++ spaced line).head?, isLayout next = true := by
  intro next ahead
  cases gap with
  | nil =>
      have line_eq : line = [] := by
        by_contra nonempty
        exact parted nonempty rfl
      rw [line_eq] at ahead
      exact nomatch ahead
  | cons first gap =>
      cases ahead
      exact blank _ List.mem_cons_self

end Written

namespace Tiled

/-- Layout before a tiled text is tiled with it. -/
theorem layout_append {offset : Nat} {gap rest : List Char} {tokens : List Token}
    (blank : ∀ c ∈ gap, isLayout c = true) (tiled : Tiled (offset + gap.length) rest tokens) :
    Tiled offset (gap ++ rest) tokens := by
  induction gap generalizing offset with
  | nil => exact tiled
  | cons first gap ih =>
      rw [List.forall_mem_cons] at blank
      rw [List.length_cons, Nat.add_comm gap.length, ← Nat.add_assoc] at tiled
      exact .layout blank.1 (ih blank.2 tiled)

/-- Written tokens with layout between them are a tiling of their text. -/
theorem exists_of_spaced (offset : Nat) {line : List (Written × List Char)}
    (blank : ∀ item ∈ line, ∀ c ∈ item.2, isLayout c = true)
    (parted : ∀ item ∈ line.dropLast, item.2 ≠ []) :
    ∃ tokens, Tiled offset (Written.spaced line) tokens ∧
      tokens.map (fun token => (token.kind, token.literal)) =
        line.map fun item => (item.1.kind, item.1.literal) := by
  induction line generalizing offset with
  | nil => exact ⟨[], .nil, rfl⟩
  | cons item line ih =>
      obtain ⟨written, gap⟩ := item
      rw [List.forall_mem_cons] at blank
      have gap_ne_nil : line ≠ [] → gap ≠ [] := by
        intro nonempty
        refine parted (written, gap) ?_
        rw [List.dropLast_cons_of_ne_nil nonempty]
        exact List.mem_cons_self
      have later_parted : ∀ item ∈ line.dropLast, item.2 ≠ [] := by
        intro item member
        refine parted item ?_
        rw [List.dropLast_cons_of_ne_nil fun empty => by simp [empty] at member]
        exact List.mem_cons_of_mem _ member
      obtain ⟨pattern, longest, gives⟩ :=
        written.exists_longest (Written.blank_of_head? blank.1 gap_ne_nil)
      obtain ⟨tokens, tiled, tokens_eq⟩ :=
        ih (offset + written.spelling.length + gap.length) blank.2 later_parted
      rw [Written.spaced_cons]
      refine ⟨_, .lexeme longest gives (layout_append blank.1 tiled), ?_⟩
      rw [List.map_cons, List.map_cons, tokens_eq, String.ofList_toList]

end Tiled

/-- Scanning undoes spelling.  Tokens that are written down with layout between any two of them, and
perhaps more before the first and after the last one, are found again in that order, and then the
end for ever. -/
theorem scan_spaced {leading : List Char} {line : List (Written × List Char)}
    (blank_leading : ∀ c ∈ leading, isLayout c = true)
    (blank : ∀ item ∈ line, ∀ c ∈ item.2, isLayout c = true)
    (parted : ∀ item ∈ line.dropLast, item.2 ≠ []) :
    let text := String.ofList (leading ++ Written.spaced line)
    (Stream.ofText text).tokens.map (fun token => (token.kind, token.literal)) =
        line.map (fun item => (item.1.kind, item.1.literal)) ∧
      ∀ distance, line.length ≤ distance →
        (Stream.ofText text).get distance = ⟨.eof, "", text.length⟩ := by
  intro text
  obtain ⟨tokens, tiled, tokens_eq⟩ := Tiled.exists_of_spaced (0 + leading.length) blank parted
  have scanned : tokens = (Stream.ofText text).tokens := by
    change tokens = Token.scanFrom 0 text.toList
    rw [String.toList_ofList]
    exact (Tiled.layout_append blank_leading tiled).eq_scanFrom
  rw [scanned] at tokens_eq
  refine ⟨tokens_eq, fun distance beyond => ?_⟩
  have length_eq := congrArg List.length tokens_eq
  rw [List.length_map, List.length_map] at length_eq
  rw [← length_eq] at beyond
  rw [Stream.get, List.getD_eq_getElem?_getD, List.getElem?_eq_none beyond]
  rfl

/-- A keyword, a glyph that begins with another one, a quoted text with layout and a keyword in it,
a numeral with leading zeros, and a character that begins nothing. -/
theorem scan_spaced_sample :
    let line : List (Written × List Char) :=
      [(⟨.letWord, "let", .keyword (by decide)⟩, ['\t']),
        (⟨.equal, "==", .glyph (by decide)⟩, ['\r', '\n']),
        (⟨.string, "= let ", .string (by decide)⟩, [' ']),
        (⟨.integer, "007", .integer (by decide) (List.all_eq_true.mp (by decide))⟩,
          [' ', ' ']),
        (⟨.illegal, "#", .of_ofFirst (by decide)⟩, [])]
    let text := String.ofList (['\n'] ++ Written.spaced line)
    text = "\nlet\t==\r\n\"= let \" 007  #" ∧
      (∀ c ∈ ['\n'], isLayout c = true) ∧
      (∀ item ∈ line, ∀ c ∈ item.2, isLayout c = true) ∧
      (∀ item ∈ line.dropLast, item.2 ≠ []) ∧
      (Stream.ofText text).tokens.map (fun token => (token.kind, token.literal)) =
        [(.letWord, "let"), (.equal, "=="), (.string, "= let "), (.integer, "007"),
          (.illegal, "#")] ∧
      (Stream.ofText text).get 5 = ⟨.eof, "", text.length⟩ := by
  intro line text
  have blank_leading : ∀ c ∈ ['\n'], isLayout c = true := List.all_eq_true.mp (by decide)
  have all_blank : ∀ item ∈ line, item.2.all isLayout = true := by decide
  have blank : ∀ item ∈ line, ∀ c ∈ item.2, isLayout c = true :=
    fun item member => List.all_eq_true.mp (all_blank item member)
  have parted : ∀ item ∈ line.dropLast, item.2 ≠ [] := by decide
  obtain ⟨tokens_eq, ended⟩ := scan_spaced blank_leading blank parted
  exact ⟨by decide, blank_leading, blank, parted, tokens_eq, ended 5 (by decide)⟩

end MarmosetLang
