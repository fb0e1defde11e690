import MarmosetLang.Token.Scan
import Mathlib.Data.List.Infix
import Mathlib.Tactic.ByContra

/-!
# Longest lexemes

The rules of the vocabulary, each by the texts that it takes as a whole.  At every place of a text
the longest lexeme that any rule takes wins, and of the rules that take it the earliest one.

Two facts make it easy to tell the longest lexeme.  The first character alone decides which rule may
take more than one character, and whatever a rule takes, it takes all beginnings of it as well.  So
a lexeme is the longest one as soon as its rule does not take one character more.
-/

namespace MarmosetLang

namespace Kind

/-- The keywords and their kinds. -/
def keywords : List (String × Kind) :=
  [("fn", functionWord), ("let", letWord), ("true", trueWord), ("false", falseWord), ("if", ifWord),
    ("else", elseWord), ("return", returnWord)]

/-- The kinds of glyphs.  Each goes by the name of its glyph. -/
def glyphs : List Kind :=
  [assign, plus, minus, bang, asterisk, slash, less, greater, equal, notEqual, comma, semicolon,
    colon, openParen, closeParen, openBrace, closeBrace, openBracket, closeBracket]

theorem ofWord_of_mem_keywords {word : String} {kind : Kind} (listed : (word, kind) ∈ keywords) :
    ofWord word = kind := by
  simp only [keywords, List.mem_cons, Prod.mk.injEq, List.not_mem_nil, or_false] at listed
  rcases listed with ⟨rfl, rfl⟩ | ⟨rfl, rfl⟩ | ⟨rfl, rfl⟩ | ⟨rfl, rfl⟩ | ⟨rfl, rfl⟩ | ⟨rfl, rfl⟩ |
    ⟨rfl, rfl⟩ <;> decide

theorem mem_keywords_or_identifier (word : String) :
    (word, ofWord word) ∈ keywords ∨
      ofWord word = identifier ∧ ∀ kind, (word, kind) ∉ keywords := by
  by_cases listed : word ∈ keywords.map Prod.fst
  · obtain ⟨⟨_, kind⟩, entry, rfl⟩ := List.mem_map.mp listed
    rw [ofWord_of_mem_keywords entry]
    exact .inl entry
  · have unlisted (kind : Kind) : (word, kind) ∉ keywords := fun entry =>
      listed (List.mem_map.mpr ⟨_, entry, rfl⟩)
    refine .inr ⟨?_, unlisted⟩
    simp only [keywords, List.map_cons, List.map_nil, List.mem_cons, List.not_mem_nil, or_false,
      not_or] at listed
    simp [ofWord, listed]

end Kind

/-- A rule of the vocabulary.  The last one takes what no other does. -/
inductive Pattern where
  | layout
  | word
  | numeral
  | quoted
  | glyph
  | any
deriving DecidableEq, Repr

namespace Pattern

/-- The place of a rule in the order in which the rules stand. -/
def rank : Pattern → Nat
  | layout => 0
  | word => 1
  | numeral => 2
  | quoted => 3
  | glyph => 4
  | any => 5

/-- The texts that a rule takes as a whole. -/
inductive Matches : Pattern → List Char → Prop where
  | layout {text : List Char} (nonempty : text ≠ []) (blank : ∀ c ∈ text, isLayout c = true) :
      Matches .layout text
  | word {text : List Char} (nonempty : text ≠ []) (letters : ∀ c ∈ text, isLetter c = true) :
      Matches .word text
  | numeral {text : List Char} (nonempty : text ≠ []) (digits : ∀ c ∈ text, c.isDigit = true) :
      Matches .numeral text
  | unclosed {body : List Char} (no_quote : '"' ∉ body) : Matches .quoted ('"' :: body)
  | closed {body : List Char} (no_quote : '"' ∉ body) : Matches .quoted ('"' :: (body ++ ['"']))
  | glyph {kind : Kind} (listed : kind ∈ Kind.glyphs) : Matches .glyph kind.name.toList
  | any {c : Char} : Matches .any [c]

/-- Of all that the rules take at the front of `lexeme ++ rest`, the lexeme is the longest, and of
the rules that take it `pattern` is the earliest. -/
structure Longest (pattern : Pattern) (lexeme rest : List Char) : Prop where
  /-- The rule takes the lexeme. -/
  taken : pattern.Matches lexeme
  /-- No rule takes more. -/
  longest : ∀ (other : Pattern) (longer : List Char), other.Matches longer →
    longer <+: lexeme ++ rest → longer.length ≤ lexeme.length
  /-- No earlier rule takes the lexeme. -/
  earliest : ∀ other : Pattern, other.Matches lexeme → pattern.rank ≤ other.rank

/-- The kind and the literal of the token that a rule makes of the lexeme that it takes.  Layout
makes no token. -/
inductive Gives : Pattern → List Char → Kind → List Char → Prop where
  | keyword {text : List Char} {kind : Kind}
      (listed : (String.ofList text, kind) ∈ Kind.keywords) : Gives .word text kind text
  | identifier {text : List Char} (unlisted : ∀ kind, (String.ofList text, kind) ∉ Kind.keywords) :
      Gives .word text .identifier text
  | integer {text : List Char} : Gives .numeral text .integer text
  | unclosed {body : List Char} (no_quote : '"' ∉ body) : Gives .quoted ('"' :: body) .string body
  | closed {body : List Char} (no_quote : '"' ∉ body) :
      Gives .quoted ('"' :: (body ++ ['"'])) .string body
  | glyph {kind : Kind} (listed : kind ∈ Kind.glyphs) :
      Gives .glyph kind.name.toList kind kind.name.toList
  | illegal {text : List Char} : Gives .any text .illegal text

/-- No rule takes the empty text. -/
theorem Matches.ne_nil {pattern : Pattern} {text : List Char} (taken : pattern.Matches text) :
    text ≠ [] := by
  cases taken with
  | layout nonempty | word nonempty | numeral nonempty => exact nonempty
  | unclosed | closed | any => exact List.cons_ne_nil _ _
  | glyph listed =>
      rename_i kind
      have all : ∀ kind ∈ Kind.glyphs, kind.name.toList ≠ [] := by decide +kernel
      exact all kind listed

/-! ## The first character -/

/-- The rule that may take a text with the given first character, when it has more than one. -/
def ofFirst (first : Char) : Pattern :=
  if isLayout first then layout
  else if isLetter first then word
  else if first.isDigit then numeral
  else if first = '"' then quoted
  else if Kind.glyphs.any fun kind => kind.name.toList.head? = some first then glyph
  else any

theorem isLetter_eq_false_of_isLayout {c : Char} (blank : isLayout c = true) :
    isLetter c = false := by
  simp only [isLayout, Bool.or_eq_true, decide_eq_true_eq] at blank
  rcases blank with ((rfl | rfl) | rfl) | rfl <;> decide

theorem isDigit_eq_false_of_isLetter {c : Char} (letter : isLetter c = true) :
    c.isDigit = false := by
  by_contra digit
  have letter_eq : isLetter c = (decide (65 ≤ c.val ∧ c.val ≤ 90) ||
      (decide (97 ≤ c.val) && decide (c.val ≤ 122)) || decide (c = '_')) := rfl
  simp only [letter_eq, Bool.or_eq_true, Bool.and_eq_true, decide_eq_true_eq,
    UInt32.le_iff_toNat_le] at letter
  simp only [Char.isDigit, Bool.not_eq_false, Bool.and_eq_true, decide_eq_true_eq,
    UInt32.le_iff_toNat_le, ge_iff_le] at digit
  change 48 ≤ c.val.toNat ∧ c.val.toNat ≤ 57 at digit
  rcases letter with (letter | letter) | rfl
  · change 65 ≤ c.val.toNat ∧ c.val.toNat ≤ 90 at letter
    omega
  · change 97 ≤ c.val.toNat ∧ c.val.toNat ≤ 122 at letter
    omega
  · exact absurd digit (by decide)

theorem isDigit_eq_false_of_isLayout {c : Char} (blank : isLayout c = true) :
    c.isDigit = false := by
  simp only [isLayout, Bool.or_eq_true, decide_eq_true_eq] at blank
  rcases blank with ((rfl | rfl) | rfl) | rfl <;> decide

theorem ofFirst_of_isLetter {c : Char} (letter : isLetter c = true) : ofFirst c = .word := by
  have visible : isLayout c = false := by
    refine Bool.eq_false_iff.mpr fun blank => ?_
    exact Bool.false_ne_true ((isLetter_eq_false_of_isLayout blank).symm.trans letter)
  simp [ofFirst, visible, letter]

theorem ofFirst_of_isDigit {c : Char} (digit : c.isDigit = true) : ofFirst c = .numeral := by
  have visible : isLayout c = false := by
    refine Bool.eq_false_iff.mpr fun blank => ?_
    exact Bool.false_ne_true ((isDigit_eq_false_of_isLayout blank).symm.trans digit)
  have no_letter : isLetter c = false := by
    refine Bool.eq_false_iff.mpr fun letter => ?_
    exact Bool.false_ne_true ((isDigit_eq_false_of_isLetter letter).symm.trans digit)
  simp [ofFirst, visible, no_letter, digit]

theorem ofFirst_of_glyph {kind : Kind} (listed : kind ∈ Kind.glyphs) {first : Char}
    {more : List Char} (name_eq : kind.name.toList = first :: more) : ofFirst first = .glyph := by
  have all : ∀ kind ∈ Kind.glyphs, kind.name.toList.head?.map ofFirst = some .glyph := by
    decide +kernel
  have head_eq := all kind listed
  rw [name_eq] at head_eq
  exact Option.some.inj head_eq

/-- The first character decides which rule may take a text, but any single character may be taken
by the last rule. -/
theorem Matches.eq_ofFirst {pattern : Pattern} {first : Char} {more : List Char}
    (taken : pattern.Matches (first :: more)) :
    pattern = ofFirst first ∨ pattern = .any ∧ more = [] := by
  generalize text_eq : first :: more = text at taken
  cases taken with
  | layout _ blank =>
      have here := blank first (text_eq ▸ List.mem_cons_self)
      simp [ofFirst, here]
  | word _ letters =>
      exact .inl (ofFirst_of_isLetter (letters _ (text_eq ▸ List.mem_cons_self))).symm
  | numeral _ digits =>
      exact .inl (ofFirst_of_isDigit (digits _ (text_eq ▸ List.mem_cons_self))).symm
  | unclosed | closed =>
      cases text_eq
      exact .inl (by decide)
  | glyph listed => exact .inl (ofFirst_of_glyph listed text_eq.symm).symm
  | any =>
      cases text_eq
      exact .inr ⟨rfl, rfl⟩

/-- Every beginning of a glyph is a glyph. -/
theorem exists_glyph_of_inits {kind : Kind} (listed : kind ∈ Kind.glyphs) :
    ∀ front ∈ kind.name.toList.inits, front ≠ [] →
      ∃ other ∈ Kind.glyphs, other.name.toList = front := by
  revert kind
  decide +kernel

/-- Whatever a rule takes, it takes every beginning of it as well. -/
theorem Matches.of_beginning {pattern : Pattern} {front text : List Char}
    (taken : pattern.Matches text) (beginning : front <+: text) (nonempty : front ≠ []) :
    pattern.Matches front := by
  cases taken with
  | layout _ blank => exact .layout nonempty fun c member => blank c (beginning.mem member)
  | word _ letters => exact .word nonempty fun c member => letters c (beginning.mem member)
  | numeral _ digits => exact .numeral nonempty fun c member => digits c (beginning.mem member)
  | unclosed no_quote =>
      obtain rfl | ⟨body, rfl, body_beginning⟩ := List.prefix_cons_iff.mp beginning
      · exact absurd rfl nonempty
      · exact .unclosed fun member => no_quote (body_beginning.mem member)
  | closed no_quote =>
      obtain rfl | ⟨body, rfl, body_beginning⟩ := List.prefix_cons_iff.mp beginning
      · exact absurd rfl nonempty
      · rcases List.prefix_concat_iff.mp body_beginning with rfl | shorter
        · exact .closed no_quote
        · exact .unclosed fun member => no_quote (shorter.mem member)
  | glyph listed =>
      obtain ⟨other, other_listed, rfl⟩ :=
        exists_glyph_of_inits listed front ((List.mem_inits _ _).mpr beginning) nonempty
      exact .glyph other_listed
  | any =>
      obtain rfl | ⟨rest, rfl, rest_beginning⟩ := List.prefix_cons_iff.mp beginning
      · exact absurd rfl nonempty
      · rw [List.prefix_nil.mp rest_beginning]
        exact .any

/-- The rule that the first character decides on takes that character alone. -/
theorem matches_ofFirst (first : Char) : (ofFirst first).Matches [first] := by
  unfold ofFirst
  split
  case isTrue blank => exact .layout (by simp) (by simpa using blank)
  split
  case isTrue letter => exact .word (by simp) (by simpa using letter)
  split
  case isTrue digit => exact .numeral (by simp) (by simpa using digit)
  split
  case isTrue quote =>
    subst quote
    exact .unclosed (by simp)
  split
  case isTrue listed =>
    obtain ⟨kind, listed, head⟩ := List.any_eq_true.mp listed
    obtain ⟨more, name_eq⟩ := List.head?_eq_some_iff.mp (of_decide_eq_true head)
    exact (Matches.glyph listed).of_beginning ⟨more, name_eq.symm⟩ (by simp)
  exact .any

/-! ## Telling the longest lexeme -/

/-- A lexeme is the longest one if the rule that its first character decides on takes it, but does
not take the next character as well. -/
theorem longest_of_next {pattern : Pattern} {first : Char} {more rest : List Char}
    (ofFirst_eq : ofFirst first = pattern) (taken : pattern.Matches (first :: more))
    (stop : ∀ next ∈ rest.head?, ¬ pattern.Matches (first :: more ++ [next])) :
    Longest pattern (first :: more) rest where
  taken := taken
  longest other longer other_taken fits := by
    by_contra exceeds
    obtain ⟨left, split⟩ := fits
    cases rest with
    | nil =>
        have lengths := congrArg List.length split
        simp only [List.length_append, List.length_nil] at lengths
        omega
    | cons next rest =>
        have one_more : first :: more ++ [next] <+: first :: more ++ next :: rest :=
          ⟨rest, by simp⟩
        have beginning : first :: more ++ [next] <+: longer := by
          apply List.prefix_of_prefix_length_le one_more ⟨left, split⟩
          rw [List.length_append, List.length_singleton]
          omega
        have next_taken := other_taken.of_beginning beginning (by simp)
        rcases next_taken.eq_ofFirst with same | ⟨_, empty⟩
        · exact stop next rfl (ofFirst_eq ▸ same ▸ next_taken)
        · simp at empty
  earliest other other_taken := by
    rcases other_taken.eq_ofFirst with same | ⟨rfl, -⟩
    · exact Nat.le_of_eq (congrArg rank (ofFirst_eq.symm.trans same.symm))
    · cases pattern <;> decide

namespace Longest

variable {pattern other : Pattern} {lexeme taken rest left : List Char}

theorem lexeme_ne_nil (longest : Longest pattern lexeme rest) : lexeme ≠ [] :=
  longest.taken.ne_nil

/-- The rule that takes the longest lexeme is the one that the first character decides on. -/
theorem pattern_eq {first : Char} {more : List Char}
    (longest : Longest pattern (first :: more) rest) : pattern = ofFirst first := by
  rcases longest.taken.eq_ofFirst with rfl | ⟨rfl, rfl⟩
  · rfl
  · have earliest := longest.earliest _ (matches_ofFirst first)
    revert earliest
    cases ofFirst first <;> simp [rank]

/-- No rule takes the next character as well. -/
theorem not_matches_next (longest : Longest pattern lexeme rest) {next : Char}
    (ahead : next ∈ rest.head?) : ¬ other.Matches (lexeme ++ [next]) := by
  intro next_taken
  obtain ⟨rest, rfl⟩ := List.head?_eq_some_iff.mp ahead
  have bound := longest.longest other _ next_taken ⟨rest, by simp⟩
  rw [List.length_append, List.length_singleton] at bound
  omega

/-- Whether a lexeme is the longest one depends on no more than the next character. -/
theorem congr (longest : Longest pattern lexeme rest) (same : left.head? = rest.head?) :
    Longest pattern lexeme left := by
  obtain ⟨first, more, rfl⟩ := List.exists_cons_of_ne_nil longest.lexeme_ne_nil
  refine longest_of_next longest.pattern_eq.symm longest.taken fun next ahead => ?_
  exact longest.not_matches_next (same ▸ ahead)

/-- At one place there is but one longest lexeme. -/
theorem unique (longest : Longest pattern lexeme rest) (second : Longest other taken left)
    (same : lexeme ++ rest = taken ++ left) :
    lexeme = taken ∧ rest = left ∧ pattern = other := by
  have lexeme_le := second.longest pattern lexeme longest.taken ⟨rest, same⟩
  have taken_le := longest.longest other taken second.taken ⟨left, same.symm⟩
  obtain ⟨rfl, rfl⟩ := List.append_inj same (Nat.le_antisymm lexeme_le taken_le)
  obtain ⟨first, more, rfl⟩ := List.exists_cons_of_ne_nil longest.lexeme_ne_nil
  exact ⟨rfl, rfl, longest.pattern_eq.trans second.pattern_eq.symm⟩

end Longest

theorem glyph_name_injective {kind : Kind} (listed : kind ∈ Kind.glyphs) :
    ∀ other ∈ Kind.glyphs, kind.name.toList = other.name.toList → kind = other := by
  revert kind
  decide +kernel

/-- A rule makes one token of a lexeme at most. -/
theorem Gives.unique {pattern : Pattern} {lexeme literal other_literal : List Char}
    {kind other : Kind} (gives : pattern.Gives lexeme kind literal)
    (second : pattern.Gives lexeme other other_literal) :
    kind = other ∧ literal = other_literal := by
  generalize lexeme_eq : lexeme = taken at second
  cases gives with
  | keyword listed =>
      subst lexeme_eq
      cases second with
      | keyword other_listed =>
          have kind_eq := Kind.ofWord_of_mem_keywords listed
          exact ⟨kind_eq.symm.trans (Kind.ofWord_of_mem_keywords other_listed), rfl⟩
      | identifier unlisted => exact absurd listed (unlisted _)
  | identifier unlisted =>
      subst lexeme_eq
      cases second with
      | keyword other_listed => exact absurd other_listed (unlisted _)
      | identifier => exact ⟨rfl, rfl⟩
  | integer | illegal =>
      subst lexeme_eq
      cases second
      exact ⟨rfl, rfl⟩
  | unclosed no_quote =>
      cases second with
      | unclosed => exact ⟨rfl, (List.cons.inj lexeme_eq).2⟩
      | closed =>
          rw [(List.cons.inj lexeme_eq).2] at no_quote
          exact absurd (by simp) no_quote
  | closed =>
      cases second with
      | unclosed no_quote =>
          rw [← (List.cons.inj lexeme_eq).2] at no_quote
          exact absurd (by simp) no_quote
      | closed => exact ⟨rfl, List.append_cancel_right (List.cons.inj lexeme_eq).2⟩
  | glyph listed =>
      cases second with
      | glyph other_listed =>
          exact ⟨glyph_name_injective listed _ other_listed lexeme_eq, lexeme_eq⟩

end Pattern
end MarmosetLang
