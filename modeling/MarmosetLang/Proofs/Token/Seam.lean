import Mathlib.Data.List.Basic
import MarmosetLang.Proofs.Token.Tiling
import MarmosetLang.Proofs.Tree.Relocation

/-!
# Seams

Where a text ends with a semicolon, nothing that follows can become a part of its last token.  So
the tokens of two texts, one after the other, are those of the first one and then those of the
second one, which stand further on.
-/

namespace MarmosetLang

open Pattern

namespace Token

/-- If there are any tokens, the last one is a semicolon. -/
def Concluded (tokens : List Token) : Prop :=
  ∀ token ∈ tokens.getLast?, token.kind = .semicolon

theorem Concluded.of_suffix {tokens rest : List Token} (concluded : Concluded tokens)
    (suffix : rest <:+ tokens) : Concluded rest := by
  obtain ⟨front, rfl⟩ := suffix
  cases rest with
  | nil => exact nofun
  | cons token rest =>
      rwa [Concluded, List.getLast?_append_of_ne_nil front (List.cons_ne_nil token rest)]
        at concluded

theorem Concluded.tail {token : Token} {rest : List Token} (concluded : Concluded (token :: rest)) :
    Concluded rest :=
  concluded.of_suffix (List.suffix_cons token rest)

theorem Concluded.kind_eq {token : Token} (concluded : Concluded [token]) :
    token.kind = .semicolon :=
  concluded token rfl

end Token

open Token (Concluded)

/-- A semicolon is a lexeme of its own, whatever follows. -/
theorem longest_semicolon (rest : List Char) : Longest .glyph [';'] rest := by
  have listed : Kind.semicolon ∈ Kind.glyphs := by decide
  refine longest_of_next (by decide) (.glyph listed) fun next _ taken => ?_
  obtain ⟨first_eq | first_eq, -⟩ := Lexeme.eq_equals_of_matches_glyph taken
  · exact absurd first_eq (by decide)
  · exact absurd first_eq (by decide)

theorem Pattern.Gives.eq_of_semicolon {pattern : Pattern} {lexeme literal : List Char}
    (gives : pattern.Gives lexeme .semicolon literal) : pattern = .glyph ∧ lexeme = [';'] := by
  generalize kind_eq : Kind.semicolon = kind at gives
  cases gives with
  | glyph =>
      subst kind_eq
      exact ⟨rfl, rfl⟩
  | keyword listed =>
      have all : ∀ entry ∈ Kind.keywords, entry.2 ≠ .semicolon := by decide
      exact absurd kind_eq.symm (all _ listed)
  | identifier | integer | unclosed | closed | illegal => exact nomatch kind_eq

namespace Tiled

variable {offset : Nat} {text rest : List Char} {tokens others : List Token}

theorem eq_nil (tiled : Tiled offset [] tokens) : tokens = [] := by
  rw [tiled.eq_scanFrom, Token.scanFrom]

/-- Tokens keep their places among themselves when the text begins further on. -/
theorem shift (tiled : Tiled offset text tokens) (distance : Nat) :
    Tiled (distance + offset) text (tokens.map (Token.relocate (distance + ·))) := by
  induction tiled with
  | nil => exact .nil
  | layout blank _ ih => exact .layout blank ih
  | lexeme longest gives _ ih =>
      rw [← Nat.add_assoc] at ih
      exact .lexeme longest gives ih

/-- A tiling that ends with a semicolon may be followed by another one. -/
theorem append (tiled : Tiled offset text tokens) (concluded : Concluded tokens)
    (further : Tiled (offset + text.length) rest others) :
    Tiled offset (text ++ rest) (tokens ++ others) := by
  induction tiled with
  | nil => exact further
  | @layout offset first more tokens blank _ ih =>
      refine .layout blank (ih concluded ?_)
      rwa [List.length_cons, Nat.add_comm more.length, ← Nat.add_assoc] at further
  | @lexeme offset pattern lexeme more literal kind tokens longest gives tiled ih =>
      rw [List.length_append, ← Nat.add_assoc] at further
      have still_longest : pattern.Longest lexeme (more ++ rest) := by
        cases more with
        | nil =>
            rw [tiled.eq_nil] at concluded
            have kind_eq : kind = .semicolon := concluded.kind_eq
            subst kind_eq
            obtain ⟨rfl, rfl⟩ := gives.eq_of_semicolon
            exact longest_semicolon rest
        | cons next more => exact longest.congr rfl
      rw [List.append_assoc]
      exact .lexeme still_longest gives (ih concluded.tail further)

end Tiled

/-- The tokens of two texts, the first of which ends with a semicolon. -/
theorem Token.scan_append {text : String} (rest : String) (concluded : Concluded (scan text)) :
    Token.scan (text ++ rest) =
      Token.scan text ++ (Token.scan rest).map (Token.relocate (text.length + ·)) := by
  have further := (tiled_scanFrom 0 rest.toList).shift text.length
  rw [Nat.add_zero, ← String.length_toList, ← Nat.zero_add text.toList.length] at further
  have whole := (tiled_scanFrom 0 text.toList).append concluded further
  rw [← String.toList_append, String.length_toList, Nat.zero_add] at whole
  exact whole.eq_scanFrom.symm

end MarmosetLang
