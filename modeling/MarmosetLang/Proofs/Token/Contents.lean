import MarmosetLang.Proofs.Token.Spacing
import Mathlib.Data.List.Forall2

/-!
# The contents of texts

What the tokens of a text say, apart from their places.  A piece of text has the same contents
wherever it stands, as long as neither a letter nor a digit follows it that would make its last word
or numeral longer.
-/

namespace MarmosetLang

/-- A kind is that of a mark: a glyph of one character with which no other glyph begins. -/
def Kind.IsMark (kind : Kind) (mark : Char) : Prop :=
  kind ∈ glyphs ∧ kind.name.toList = [mark] ∧ ¬ (mark = '=' ∨ mark = '!')

instance (kind : Kind) (mark : Char) : Decidable (kind.IsMark mark) :=
  inferInstanceAs (Decidable (_ ∧ _ ∧ _))

namespace Token

open Pattern

/-- The kind and the literal of a token. -/
def content (token : Token) : Kind × String :=
  (token.kind, token.literal)

/-- The contents of the tokens of a text. -/
def contentsOf (text : List Char) : List (Kind × String) :=
  (scanFrom 0 text).map content

/-- The contents of a text do not depend on its place. -/
theorem map_content_scanFrom (offset : Nat) (text : List Char) :
    (scanFrom offset text).map content = contentsOf text := by
  have anywhere (other : Nat) :
      (scanFrom offset text).map content = (scanFrom other text).map content := by
    fun_induction scanFrom offset text generalizing other with
    | case1 => rw [scanFrom]
    | case2 offset first rest blank ih =>
        rw [scanFrom, if_pos blank]
        exact ih _
    | case3 offset first rest visible lexeme ih =>
        rw [scanFrom, if_neg visible, List.map_cons, List.map_cons, ih]
        rfl
  exact anywhere 0

theorem contentsOf_nil : contentsOf [] = [] := by
  rw [contentsOf, scanFrom, List.map_nil]

theorem contentsOf_of_layout {first : Char} (blank : isLayout first = true) (rest : List Char) :
    contentsOf (first :: rest) = contentsOf rest := by
  rw [contentsOf, scanFrom, if_pos blank, map_content_scanFrom]

/-- The longest lexeme at the front of a text gives its first content. -/
theorem contentsOf_of_longest {pattern : Pattern} {lexeme rest literal : List Char} {kind : Kind}
    (longest : pattern.Longest lexeme rest) (gives : pattern.Gives lexeme kind literal) :
    contentsOf (lexeme ++ rest) = (kind, String.ofList literal) :: contentsOf rest := by
  have tiled : Tiled 0 (lexeme ++ rest) _ :=
    .lexeme longest gives (tiled_scanFrom (0 + lexeme.length) rest)
  rw [contentsOf, ← tiled.eq_scanFrom, List.map_cons, map_content_scanFrom]
  rfl

/-- Neither a letter nor a digit stands at the front of a text. -/
def Parted (rest : List Char) : Prop :=
  ∀ next ∈ rest.head?, isLetter next = false ∧ next.isDigit = false

theorem parted_of_isMark {kind : Kind} {mark : Char} (is_mark : kind.IsMark mark)
    (rest : List Char) : Parted (mark :: rest) := by
  have ofFirst_eq : ofFirst mark = .glyph := ofFirst_of_glyph is_mark.1 is_mark.2.1
  rintro _ ⟨⟩
  refine ⟨Bool.eq_false_iff.mpr fun letter => ?_, Bool.eq_false_iff.mpr fun digit => ?_⟩
  · exact nomatch (ofFirst_of_isLetter letter).symm.trans ofFirst_eq
  · exact nomatch (ofFirst_of_isDigit digit).symm.trans ofFirst_eq

theorem parted_of_isLayout {gap : Char} (blank : isLayout gap = true) (rest : List Char) :
    Parted (gap :: rest) := by
  rintro _ ⟨⟩
  exact ⟨isLetter_eq_false_of_isLayout blank, isDigit_eq_false_of_isLayout blank⟩

/-- A glyph of one character is a token, unless what follows makes it a longer one. -/
theorem contentsOf_glyph_cons {kind : Kind} {first : Char} {rest : List Char}
    (listed : kind ∈ Kind.glyphs) (name_eq : kind.name.toList = [first])
    (alone : (first = '=' ∨ first = '!') → rest.head? ≠ some '=') :
    contentsOf (first :: rest) = (kind, kind.name) :: contentsOf rest := by
  have taken : Lexeme.IsTaken ⟨kind, [first], 1⟩ .glyph (first :: rest) [first] rest :=
    Lexeme.isTaken_single listed name_eq alone
  have literal_eq : String.ofList [first] = kind.name := by
    rw [← name_eq, String.ofList_toList]
  rw [← literal_eq]
  exact contentsOf_of_longest taken.longest taken.gives

/-- A mark is a token whatever stands behind it. -/
theorem contentsOf_mark_cons {kind : Kind} {mark : Char} (is_mark : kind.IsMark mark)
    (rest : List Char) : contentsOf (mark :: rest) = (kind, kind.name) :: contentsOf rest :=
  contentsOf_glyph_cons is_mark.1 is_mark.2.1 (absurd · is_mark.2.2)

/-- A piece of text has these contents wherever it stands before something parted from it. -/
def Scans (text : List Char) (contents : List (Kind × String)) : Prop :=
  ∀ rest, Parted rest → contentsOf (text ++ rest) = contents ++ contentsOf rest

namespace Scans

variable {text second : List Char} {contents others : List (Kind × String)}

theorem contentsOf_eq (scans : Scans text contents) : contentsOf text = contents := by
  have alone := scans [] nofun
  rwa [List.append_nil, contentsOf_nil, List.append_nil] at alone

theorem nil : Scans [] [] :=
  fun _ _ => rfl

/-- One piece stands before another one that is parted from it. -/
theorem append (scans : Scans text contents) (other_scans : Scans second others)
    (nonempty : second ≠ []) (parted : Parted second) :
    Scans (text ++ second) (contents ++ others) := by
  intro rest rest_parted
  have still_parted : Parted (second ++ rest) := by
    obtain ⟨first, more, rfl⟩ := List.exists_cons_of_ne_nil nonempty
    exact parted
  rw [List.append_assoc, scans _ still_parted, other_scans _ rest_parted, List.append_assoc]

/-- Layout has no contents. -/
theorem layout_cons {gap : Char} (blank : isLayout gap = true) (scans : Scans text contents) :
    Scans (gap :: text) contents :=
  fun rest parted => (contentsOf_of_layout blank _).trans (scans rest parted)

section Marks

variable {mark opener : Char} {kind opening : Kind} (is_mark : kind.IsMark mark)
include is_mark

theorem mark_cons (scans : Scans text contents) :
    Scans (mark :: text) ((kind, kind.name) :: contents) := by
  intro rest parted
  rw [List.cons_append, contentsOf_mark_cons is_mark, scans rest parted, List.cons_append]

/-- A mark parts what stands before it from what stands behind it. -/
theorem append_mark (scans : Scans text contents) (other_scans : Scans second others) :
    Scans (text ++ mark :: second) (contents ++ (kind, kind.name) :: others) :=
  scans.append (mark_cons is_mark other_scans) (List.cons_ne_nil _ _)
    (parted_of_isMark is_mark second)

theorem enclosed (is_opener : opening.IsMark opener) (scans : Scans text contents) :
    Scans (opener :: (text ++ [mark]))
      ((opening, opening.name) :: (contents ++ [(kind, kind.name)])) :=
  mark_cons is_opener (append_mark is_mark scans .nil)

end Marks

/-- A glyph of one character stands before something that it makes no longer one with. -/
theorem glyph_cons {kind : Kind} {first next : Char} (listed : kind ∈ Kind.glyphs)
    (name_eq : kind.name.toList = [first]) (alone : next ≠ '=')
    (scans : Scans (next :: text) contents) :
    Scans (first :: next :: text) ((kind, kind.name) :: contents) := by
  intro rest parted
  have differs : (next :: text ++ rest).head? ≠ some '=' := fun same =>
    alone (Option.some.inj same)
  rw [List.cons_append, contentsOf_glyph_cons listed name_eq fun _ => differs, scans rest parted,
    List.cons_append]

/-- Any glyph is a token before layout. -/
theorem glyph_append {kind : Kind} {gap : Char} (listed : kind ∈ Kind.glyphs)
    (blank : isLayout gap = true) (scans : Scans text contents) :
    Scans (kind.name.toList ++ gap :: text) ((kind, kind.name) :: contents) := by
  intro rest parted
  have before_blank : ∀ next ∈ (gap :: (text ++ rest)).head?, isLayout next = true := by
    rintro _ ⟨⟩
    exact blank
  have longest : Pattern.glyph.Longest kind.name.toList (gap :: (text ++ rest)) :=
    longest_of_blank (.glyph listed) (by decide) before_blank
  have contents_eq := contentsOf_of_longest longest (.glyph listed)
  rw [String.ofList_toList] at contents_eq
  rw [List.append_assoc, List.cons_append, contents_eq, contentsOf_of_layout blank,
    scans rest parted, List.cons_append]

/-- Layout parts what stands before it from what stands behind it. -/
theorem append_layout {gap : Char} (blank : isLayout gap = true) (scans : Scans text contents)
    (other_scans : Scans second others) : Scans (text ++ gap :: second) (contents ++ others) :=
  scans.append (layout_cons blank other_scans) (List.cons_ne_nil _ _)
    (parted_of_isLayout blank second)

theorem longest_word {rest : List Char} (nonempty : text ≠ [])
    (letters : ∀ c ∈ text, isLetter c = true) (parted : Parted rest) :
    Pattern.word.Longest text rest := by
  obtain ⟨first, more, rfl⟩ := List.exists_cons_of_ne_nil nonempty
  refine longest_of_next (ofFirst_of_isLetter (letters first List.mem_cons_self))
    (.word nonempty letters) fun next ahead taken => ?_
  have letter := ((Lexeme.matches_word_iff _).mp taken).2 next (by simp)
  exact Bool.false_ne_true ((parted next ahead).1.symm.trans letter)

theorem word {kind : Kind} (nonempty : text ≠ []) (letters : ∀ c ∈ text, isLetter c = true)
    (listed : (String.ofList text, kind) ∈ Kind.keywords) :
    Scans text [(kind, String.ofList text)] :=
  fun _ parted => contentsOf_of_longest (longest_word nonempty letters parted) (.keyword listed)

theorem identifier (nonempty : text ≠ []) (letters : ∀ c ∈ text, isLetter c = true)
    (unlisted : ∀ kind, (String.ofList text, kind) ∉ Kind.keywords) :
    Scans text [(.identifier, String.ofList text)] :=
  fun _ parted =>
    contentsOf_of_longest (longest_word nonempty letters parted) (.identifier unlisted)

theorem numeral (nonempty : text ≠ []) (digits : ∀ c ∈ text, c.isDigit = true) :
    Scans text [(.integer, String.ofList text)] := by
  intro rest parted
  obtain ⟨first, more, rfl⟩ := List.exists_cons_of_ne_nil nonempty
  have longest : Pattern.numeral.Longest (first :: more) rest := by
    refine longest_of_next (ofFirst_of_isDigit (digits first List.mem_cons_self))
      (.numeral nonempty digits) fun next ahead taken => ?_
    have digit := ((Lexeme.matches_numeral_iff _).mp taken).2 next (by simp)
    exact Bool.false_ne_true ((parted next ahead).2.symm.trans digit)
  exact contentsOf_of_longest longest .integer

/-- Pieces of text with commas between them. -/
theorem intercalate {texts : List (List Char)} {each : List (List (Kind × String))}
    (scans : List.Forall₂ Scans texts each) :
    Scans ([',', ' '].intercalate texts) ([(.comma, ",")].intercalate each) := by
  induction scans with
  | nil => exact .nil
  | @cons text contents texts each first rest ih =>
      cases rest with
      | nil => rwa [List.intercalate_singleton, List.intercalate_singleton]
      | cons second others =>
          rw [List.intercalate_cons_cons, List.intercalate_cons_cons, List.append_assoc,
            List.append_assoc]
          exact append_mark (by decide : Kind.comma.IsMark ',') first (.layout_cons (by decide) ih)

/-- Pieces of text with commas between them, between two marks. -/
theorem listing {mark opener : Char} {kind opening : Kind} (is_opener : opening.IsMark opener)
    (is_mark : kind.IsMark mark) {texts : List String} {each : List (List (Kind × String))}
    (scans : List.Forall₂ (fun text contents => Scans text.toList contents) texts each) :
    Scans (opener :: ((", ".intercalate texts).toList ++ [mark]))
      ((opening, opening.name) ::
        ([(.comma, ",")].intercalate each ++ [(kind, kind.name)])) := by
  rw [String.toList_intercalate]
  exact enclosed is_mark is_opener (.intercalate (List.forall₂_map_left_iff.mpr scans))

/-- The literal of a word or a numeral, as it may stand in a text. -/
theorem of_carries {kind : Kind} {literal : List Char} (carries : kind.Carries literal)
    (plain : kind ∉ .string :: .illegal :: Kind.glyphs) :
    Scans literal [(kind, String.ofList literal)] := by
  rw [List.mem_cons, List.mem_cons, not_or, not_or] at plain
  obtain ⟨no_string, legal, no_glyph⟩ := plain
  cases carries with
  | @keyword kind word listed =>
      have all : ∀ entry ∈ Kind.keywords, entry.1.toList ≠ [] ∧
          entry.1.toList.all isLetter = true := by decide
      obtain ⟨nonempty, letters⟩ := all _ listed
      refine .word nonempty (List.all_eq_true.mp letters) ?_
      rwa [String.ofList_toList]
  | glyph listed => exact absurd listed no_glyph
  | identifier nonempty letters unlisted => exact .identifier nonempty letters unlisted
  | integer nonempty digits => exact .numeral nonempty digits
  | string => exact absurd rfl no_string
  | illegal => exact absurd rfl legal

end Scans

end Token
end MarmosetLang
