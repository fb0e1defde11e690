import MarmosetLang.Proofs.Token.Longest
import MarmosetLang.Token.Stream
import Mathlib.Data.List.TakeWhile

/-!
# Tilings

A text is tiled by its lexemes with layout between them.  The tiling by longest lexemes is the only
one of its sort, and scanning finds it.
-/

namespace MarmosetLang

open Pattern

namespace Lexeme

/-! ## What scanning takes at one place -/

/-- At the front of a text scanning takes the lexeme that some rule takes there, and gives the token
that the rule makes of it. -/
structure IsTaken (found : Lexeme) (pattern : Pattern) (text lexeme left : List Char) : Prop where
  /-- The text falls into the lexeme and what is left. -/
  split : text = lexeme ++ left
  /-- As many characters are taken as the lexeme has. -/
  size : found.size = lexeme.length
  /-- No rule takes more, and no earlier one as much. -/
  longest : pattern.Longest lexeme left
  /-- The rule makes this token of the lexeme. -/
  gives : pattern.Gives lexeme found.kind found.literal

/-- A rule that takes the texts of certain characters takes them up to the first other one. -/
theorem longest_takeWhile {pattern : Pattern} {belongs : Char → Bool} {first : Char}
    (matches_iff : ∀ text, pattern.Matches text ↔ text ≠ [] ∧ ∀ c ∈ text, belongs c = true)
    (first_belongs : belongs first = true) (ofFirst_eq : ofFirst first = pattern)
    (rest : List Char) :
    pattern.Longest (first :: rest.takeWhile belongs) (rest.dropWhile belongs) := by
  refine longest_of_next ofFirst_eq ((matches_iff _).mpr ⟨List.cons_ne_nil _ _, ?_⟩) ?_
  · exact List.forall_mem_cons.mpr ⟨first_belongs, fun c member => List.mem_takeWhile_imp member⟩
  · intro next ahead more_taken
    have next_belongs := ((matches_iff _).mp more_taken).2 next (by simp)
    have stop := List.head?_dropWhile_not belongs rest
    rw [Option.mem_def.mp ahead] at stop
    exact Bool.false_ne_true (stop.symm.trans next_belongs)

theorem matches_word_iff (text : List Char) :
    Matches .word text ↔ text ≠ [] ∧ ∀ c ∈ text, isLetter c = true := by
  constructor
  · rintro ⟨⟩
    exact ⟨‹_›, ‹_›⟩
  · rintro ⟨nonempty, letters⟩
    exact .word nonempty letters

theorem matches_numeral_iff (text : List Char) :
    Matches .numeral text ↔ text ≠ [] ∧ ∀ c ∈ text, c.isDigit = true := by
  constructor
  · rintro ⟨⟩
    exact ⟨‹_›, ‹_›⟩
  · rintro ⟨nonempty, digits⟩
    exact .numeral nonempty digits

theorem isTaken_word {first : Char} (letter : isLetter first = true) (rest : List Char) :
    (word first rest).IsTaken .word (first :: rest) (first :: rest.takeWhile isLetter)
      (rest.dropWhile isLetter) where
  split := by rw [List.cons_append, List.takeWhile_append_dropWhile]
  size := rfl
  longest := longest_takeWhile matches_word_iff letter (ofFirst_of_isLetter letter) rest
  gives := by
    rcases Kind.mem_keywords_or_identifier
        (String.ofList (first :: rest.takeWhile isLetter)) with listed | ⟨kind_eq, unlisted⟩
    · exact .keyword listed
    · unfold word
      simp only [kind_eq]
      exact .identifier unlisted

theorem isTaken_numeral {first : Char} (digit : first.isDigit = true) (rest : List Char) :
    (numeral first rest).IsTaken .numeral (first :: rest) (first :: rest.takeWhile Char.isDigit)
      (rest.dropWhile Char.isDigit) where
  split := by rw [List.cons_append, List.takeWhile_append_dropWhile]
  size := rfl
  longest := longest_takeWhile matches_numeral_iff digit (ofFirst_of_isDigit digit) rest
  gives := .integer

theorem not_mem_takeWhile_quote (rest : List Char) : '"' ∉ rest.takeWhile (· != '"') := by
  intro member
  have differs := List.mem_takeWhile_imp member
  simp at differs

/-- Nothing is taken beyond the closing quote. -/
theorem not_matches_closed_append {body : List Char} {next : Char} :
    ¬ Matches .quoted ('"' :: (body ++ ['"']) ++ [next]) := by
  intro taken
  generalize text_eq : '"' :: (body ++ ['"']) ++ [next] = text at taken
  cases taken with
  | unclosed no_other_quote =>
      rw [← (List.cons.inj text_eq).2] at no_other_quote
      exact no_other_quote (by simp)
  | closed no_other_quote =>
      have other_eq := (List.append_inj_left' (List.cons.inj text_eq).2 rfl)
      rw [← other_eq] at no_other_quote
      exact no_other_quote (by simp)

/-- A quoted text reaches to the next quote, or else to the end of the text. -/
theorem exists_isTaken_quoted (rest : List Char) :
    ∃ lexeme left, (quoted rest).IsTaken .quoted ('"' :: rest) lexeme left := by
  have no_quote := not_mem_takeWhile_quote rest
  have ofFirst_eq : ofFirst '"' = .quoted := by decide
  have body_eq : rest.takeWhile (· != '"') ++ rest.dropWhile (· != '"') = rest :=
    List.takeWhile_append_dropWhile
  cases left_eq : rest.dropWhile (· != '"') with
  | nil =>
      rw [left_eq, List.append_nil] at body_eq
      refine ⟨'"' :: rest.takeWhile (· != '"'), [], ?_, ?_, ?_, .unclosed no_quote⟩
      · rw [body_eq, List.append_nil]
      · simp only [quoted, body_eq, List.length_cons]
        omega
      · exact longest_of_next ofFirst_eq (.unclosed no_quote) (by simp)
  | cons quote left =>
      have quote_eq : quote = '"' := by
        have stop := List.head?_dropWhile_not (· != '"') rest
        rw [left_eq] at stop
        simpa using stop
      subst quote_eq
      rw [left_eq] at body_eq
      refine ⟨'"' :: (rest.takeWhile (· != '"') ++ ['"']), left, ?_, ?_, ?_, .closed no_quote⟩
      · simp [body_eq]
      · have length_eq := congrArg List.length body_eq
        simp only [List.length_append, List.length_cons] at length_eq
        simp only [quoted, List.length_append, List.length_cons, List.length_nil]
        omega
      · exact longest_of_next ofFirst_eq (.closed no_quote) fun next _ =>
          not_matches_closed_append

/-- Only an equals sign makes two glyphs one. -/
theorem eq_equals_of_matches_glyph {first next : Char} (taken : Matches .glyph [first, next]) :
    (first = '=' ∨ first = '!') ∧ next = '=' := by
  generalize text_eq : [first, next] = text at taken
  cases taken with
  | glyph listed =>
      rename_i kind
      have all : ∀ kind ∈ Kind.glyphs, kind.name.toList.length = 2 →
          kind.name.toList = ['=', '='] ∨ kind.name.toList = ['!', '='] := by decide +kernel
      rcases all kind listed (text_eq ▸ rfl) with name_eq | name_eq
      · cases text_eq.trans name_eq
        exact ⟨.inl rfl, rfl⟩
      · cases text_eq.trans name_eq
        exact ⟨.inr rfl, rfl⟩

/-- No glyph has three characters. -/
theorem not_matches_glyph {first second third : Char} :
    ¬ Matches .glyph [first, second, third] := by
  intro taken
  generalize text_eq : [first, second, third] = text at taken
  cases taken with
  | glyph listed =>
      rename_i kind
      have all : ∀ kind ∈ Kind.glyphs, kind.name.toList.length ≤ 2 := by decide +kernel
      have short := all kind listed
      rw [← text_eq] at short
      exact absurd short (by simp)

/-- A glyph stands alone unless an equals sign follows that belongs to it. -/
theorem isTaken_single {kind : Kind} {first : Char} {rest : List Char}
    (listed : kind ∈ Kind.glyphs) (name_eq : kind.name.toList = [first])
    (alone : (first = '=' ∨ first = '!') → rest.head? ≠ some '=') :
    IsTaken ⟨kind, [first], 1⟩ .glyph (first :: rest) [first] rest where
  split := rfl
  size := rfl
  longest := by
    have taken : Matches .glyph [first] := name_eq ▸ .glyph listed
    have ofFirst_eq : ofFirst first = .glyph := ofFirst_of_glyph listed name_eq
    refine longest_of_next ofFirst_eq taken fun next ahead more_taken => ?_
    obtain ⟨doubles, rfl⟩ := eq_equals_of_matches_glyph more_taken
    exact alone doubles ahead
  gives := by
    have gives := Gives.glyph listed
    rwa [name_eq] at gives

theorem isTaken_double {kind : Kind} {first : Char} {rest : List Char}
    (listed : kind ∈ Kind.glyphs) (name_eq : kind.name.toList = [first, '=']) :
    IsTaken ⟨kind, [first, '='], 2⟩ .glyph (first :: '=' :: rest) [first, '='] rest where
  split := rfl
  size := rfl
  longest := by
    have taken : Matches .glyph [first, '='] := name_eq ▸ .glyph listed
    have ofFirst_eq : ofFirst first = .glyph := ofFirst_of_glyph listed name_eq
    exact longest_of_next ofFirst_eq taken fun next _ => not_matches_glyph
  gives := by
    have gives := Gives.glyph listed
    rwa [name_eq] at gives

/-- What begins no glyph stands alone as well. -/
theorem isTaken_illegal {first : Char} {rest : List Char} (ofFirst_eq : ofFirst first = .any) :
    IsTaken ⟨.illegal, [first], 1⟩ .any (first :: rest) [first] rest where
  split := rfl
  size := rfl
  longest := longest_of_next ofFirst_eq .any fun _ _ => nofun
  gives := .illegal

/-- The characters with which glyphs begin. -/
theorem mem_of_head_glyph {kind : Kind} (listed : kind ∈ Kind.glyphs) {first : Char}
    (head_eq : kind.name.toList.head? = some first) :
    first ∈
      ['=', '!', '+', '-', '*', '/', '<', '>', ',', ';', ':', '(', ')', '{', '}', '[', ']'] := by
  have all : ∀ kind ∈ Kind.glyphs, (kind.name.toList.head?.any fun first => decide (first ∈
      ['=', '!', '+', '-', '*', '/', '<', '>', ',', ';', ':', '(', ')', '{', '}', '[', ']'])) =
      true := by
    decide +kernel
  have member := all kind listed
  rw [head_eq] at member
  exact of_decide_eq_true member

theorem exists_isTaken_glyph {first : Char} (rest : List Char)
    (visible : isLayout first = false) (no_letter : isLetter first = false)
    (no_digit : first.isDigit = false) (no_quote : first ≠ '"') :
    ∃ pattern lexeme left, (glyph first rest).IsTaken pattern (first :: rest) lexeme left := by
  unfold glyph
  dsimp only
  split
  case h_1 =>
    split
    case isTrue doubled =>
      obtain ⟨rest, rfl⟩ := List.head?_eq_some_iff.mp doubled
      exact ⟨_, _, _, isTaken_double (by decide) rfl⟩
    case isFalse alone => exact ⟨_, _, _, isTaken_single (by decide) rfl fun _ => alone⟩
  case h_2 =>
    split
    case isTrue doubled =>
      obtain ⟨rest, rfl⟩ := List.head?_eq_some_iff.mp doubled
      exact ⟨_, _, _, isTaken_double (by decide) rfl⟩
    case isFalse alone => exact ⟨_, _, _, isTaken_single (by decide) rfl fun _ => alone⟩
  case h_18 =>
    refine ⟨_, _, _, isTaken_illegal ?_⟩
    have no_glyph : (Kind.glyphs.any fun kind => kind.name.toList.head? = some first) = false := by
      refine Bool.eq_false_iff.mpr fun listed => ?_
      obtain ⟨kind, listed, head⟩ := List.any_eq_true.mp listed
      have member := mem_of_head_glyph listed (of_decide_eq_true head)
      simp_all
    simp [ofFirst, visible, no_letter, no_digit, no_quote, no_glyph]
  all_goals exact ⟨_, _, _, isTaken_single (by decide) rfl (by simp)⟩

theorem exists_isTaken {first : Char} (visible : isLayout first = false) (rest : List Char) :
    ∃ pattern lexeme left,
      (Lexeme.longest first rest).IsTaken pattern (first :: rest) lexeme left := by
  unfold Lexeme.longest
  split
  case isTrue letter => exact ⟨_, _, _, isTaken_word letter rest⟩
  case isFalse no_letter =>
    split
    case isTrue digit => exact ⟨_, _, _, isTaken_numeral digit rest⟩
    case isFalse no_digit =>
      split
      case isTrue quote =>
        subst quote
        exact ⟨_, exists_isTaken_quoted rest⟩
      case isFalse no_quote =>
        exact exists_isTaken_glyph rest visible (Bool.not_eq_true _ ▸ no_letter)
          (Bool.not_eq_true _ ▸ no_digit) no_quote

/-- What is left after the lexeme is what scanning goes on with. -/
theorem IsTaken.drop_eq {found : Lexeme} {pattern : Pattern} {first : Char}
    {rest lexeme left : List Char} (taken : found.IsTaken pattern (first :: rest) lexeme left) :
    rest.drop (found.size - 1) = left := by
  obtain ⟨start, more, rfl⟩ := List.exists_cons_of_ne_nil taken.longest.lexeme_ne_nil
  have rest_eq : rest = more ++ left := (List.cons.inj taken.split).2
  rw [taken.size, List.length_cons, Nat.add_sub_cancel, rest_eq, List.drop_left]

end Lexeme

/-! ## Tilings of a text -/

/-- Layout and longest lexemes, one after another, make up a text that begins `offset` characters
into the whole, and each lexeme gives a token. -/
inductive Tiled : Nat → List Char → List Token → Prop where
  | nil {offset : Nat} : Tiled offset [] []
  | layout {offset : Nat} {first : Char} {rest : List Char} {tokens : List Token}
      (blank : isLayout first = true) (tiled : Tiled (offset + 1) rest tokens) :
      Tiled offset (first :: rest) tokens
  | lexeme {offset : Nat} {pattern : Pattern} {lexeme rest literal : List Char} {kind : Kind}
      {tokens : List Token} (longest : pattern.Longest lexeme rest)
      (gives : pattern.Gives lexeme kind literal)
      (tiled : Tiled (offset + lexeme.length) rest tokens) :
      Tiled offset (lexeme ++ rest) (⟨kind, String.ofList literal, offset⟩ :: tokens)

theorem tiled_scanFrom (offset : Nat) (text : List Char) :
    Tiled offset text (Token.scanFrom offset text) := by
  fun_induction Token.scanFrom offset text with
  | case1 => exact .nil
  | case2 offset first rest blank ih => exact .layout blank ih
  | case3 offset first rest visible found ih =>
      obtain ⟨pattern, lexeme, left, taken⟩ :=
        Lexeme.exists_isTaken (Bool.eq_false_iff.mpr visible) rest
      rw [taken.drop_eq, taken.size] at ih
      rw [taken.split, taken.drop_eq, taken.size]
      exact .lexeme taken.longest taken.gives ih

/-- Layout gives no token, and so the first character of a lexeme is none. -/
theorem Pattern.Longest.visible {pattern : Pattern} {first : Char} {more rest literal : List Char}
    {kind : Kind} (longest : pattern.Longest (first :: more) rest)
    (gives : pattern.Gives (first :: more) kind literal) : isLayout first = false := by
  refine Bool.eq_false_iff.mpr fun blank => ?_
  have pattern_eq := longest.pattern_eq
  simp only [ofFirst, blank, if_true] at pattern_eq
  subst pattern_eq
  cases gives

/-- There is no other tiling than the one that scanning finds. -/
theorem Tiled.eq_scanFrom {offset : Nat} {text : List Char} {tokens : List Token}
    (tiled : Tiled offset text tokens) : tokens = Token.scanFrom offset text := by
  induction tiled with
  | nil => rw [Token.scanFrom]
  | layout blank tiled ih => rw [Token.scanFrom, if_pos blank, ih]
  | @lexeme offset pattern lexeme rest literal kind tokens longest gives tiled ih =>
      obtain ⟨first, more, rfl⟩ := List.exists_cons_of_ne_nil longest.lexeme_ne_nil
      have visible := longest.visible gives
      obtain ⟨other, found, left, taken⟩ := Lexeme.exists_isTaken visible (more ++ rest)
      obtain ⟨rfl, rfl, rfl⟩ := longest.unique taken.longest taken.split
      obtain ⟨kind_eq, literal_eq⟩ := gives.unique taken.gives
      rw [List.cons_append, Token.scanFrom, if_neg (Bool.eq_false_iff.mp visible)]
      dsimp only
      rw [taken.drop_eq, taken.size, ← ih, ← kind_eq, ← literal_eq]

/-- Every token of a tiled text begins in it, and behind those before it. -/
theorem Tiled.ordered {offset : Nat} {text : List Char} {tokens : List Token}
    (tiled : Tiled offset text tokens) :
    tokens.Pairwise (fun earlier later => earlier.offset < later.offset) ∧
      ∀ token ∈ tokens, offset ≤ token.offset ∧ token.offset < offset + text.length := by
  induction tiled with
  | nil => exact ⟨.nil, List.forall_mem_nil _⟩
  | layout blank tiled ih =>
      obtain ⟨ordered, bounds⟩ := ih
      refine ⟨ordered, fun token member => ?_⟩
      have bound := bounds token member
      rw [List.length_cons]
      omega
  | @lexeme offset pattern lexeme rest literal kind tokens longest gives tiled ih =>
      obtain ⟨ordered, bounds⟩ := ih
      have length_pos := List.length_pos_iff.mpr longest.lexeme_ne_nil
      rw [List.length_append]
      refine ⟨.cons (fun token member => ?_) ordered, List.forall_mem_cons.mpr ⟨?_, ?_⟩⟩
      · have bound := bounds token member
        change offset < token.offset
        omega
      · change offset ≤ offset ∧ offset < _
        omega
      · intro token member
        have bound := bounds token member
        omega

end MarmosetLang
