import MarmosetLang.Proofs.Grammar.Spelling
import MarmosetLang.Proofs.Token.Contents

/-!
# Lists of tokens that say what is asked for

Of written forms only the contents of their tokens matter.  If the contents of each part of a list
spell an expression, wherever the tokens stand, then those of the parts with commas between them
spell the list.
-/

namespace MarmosetLang

theorem intercalate_cons_eq {α : Type} (separator first : List α) (others : List (List α)) :
    separator.intercalate (first :: others) =
      first ++ others.flatMap fun other => separator ++ other := by
  induction others generalizing first with
  | nil => rw [List.intercalate_singleton, List.flatMap_nil, List.append_nil]
  | cons second others ih =>
      rw [List.intercalate_cons_cons, ih, List.flatMap_cons, List.append_assoc, List.append_assoc]

/-- Tokens with the given contents between those of an opener and a closer are between an opener and
a closer. -/
theorem Token.exists_enclosed {tokens : List Token} {opening closing : Kind × String}
    {contents : List (Kind × String)}
    (contents_eq : tokens.map Token.content = opening :: (contents ++ [closing])) :
    ∃ opener inside closer, tokens = opener :: (inside ++ [closer]) ∧
      opener.content = opening ∧ inside.map Token.content = contents ∧
      closer.content = closing := by
  obtain ⟨opener, others, rfl, opener_eq, others_eq⟩ := List.map_eq_cons_iff.mp contents_eq
  obtain ⟨inside, ending, rfl, inside_eq, ending_eq⟩ := List.map_eq_append_iff.mp others_eq
  obtain ⟨closer, rfl, closer_eq⟩ := List.map_eq_singleton_iff.mp ending_eq
  exact ⟨opener, inside, closer, rfl, opener_eq, inside_eq, closer_eq⟩

theorem Spelled.lowest {expr : Expr} {before after : List Token}
    (bare : Spelled (.bare expr) before after) :
    Spelled (.expression Grammar.lowest expr) before after :=
  .ungrouped (Nat.le_of_lt bare.lowest_lt_strength) bare

open Grammar (lowest)

/-- Tokens with the given contents spell an expression that is meant, wherever they stand and
whatever comes after them.  It stands where only what binds with the given strength may stand
bare. -/
def Conveys (strength : Nat) (contents : List (Kind × String)) (Meant : Expr → Prop) : Prop :=
  ∀ tokens : List Token, tokens.map Token.content = contents →
    ∃ expr, (∀ after, Spelled (.expression strength expr) (tokens ++ after) after) ∧ Meant expr

/-- Tokens with the given contents spell a key and a value that are meant. -/
def ConveysPair (contents : List (Kind × String)) (Meant : Expr × Expr → Prop) : Prop :=
  ∀ tokens : List Token, tokens.map Token.content = contents →
    ∃ pair : Expr × Expr, Meant pair ∧ ∀ after, ∃ colon middle,
      Spelled (.expression lowest pair.1) (tokens ++ after) (colon :: middle) ∧
        colon.kind = .colon ∧ Spelled (.expression lowest pair.2) middle after

theorem Conveys.mono {strength weaker : Nat} {contents : List (Kind × String)} {Meant : Expr → Prop}
    (conveys : Conveys strength contents Meant) (le : weaker ≤ strength) :
    Conveys weaker contents Meant := by
  intro tokens contents_eq
  obtain ⟨expr, spelled, meant⟩ := conveys tokens contents_eq
  exact ⟨expr, fun after => (spelled after).mono le, meant⟩

theorem Conveys.pair {key_contents value_contents : List (Kind × String)}
    {KeyMeant ValueMeant : Expr → Prop} (key : Conveys lowest key_contents KeyMeant)
    (value : Conveys lowest value_contents ValueMeant) :
    ConveysPair (key_contents ++ (.colon, ":") :: value_contents)
      fun pair => KeyMeant pair.1 ∧ ValueMeant pair.2 := by
  intro tokens contents_eq
  obtain ⟨key_tokens, rest, rfl, key_eq, rest_eq⟩ := List.map_eq_append_iff.mp contents_eq
  obtain ⟨colon, value_tokens, rfl, colon_eq, value_eq⟩ := List.map_eq_cons_iff.mp rest_eq
  obtain ⟨key_expr, key_spelled, key_meant⟩ := key key_tokens key_eq
  obtain ⟨value_expr, value_spelled, value_meant⟩ := value value_tokens value_eq
  refine ⟨(key_expr, value_expr), ⟨key_meant, value_meant⟩, fun after => ?_⟩
  refine ⟨colon, value_tokens ++ after, ?_, congrArg Prod.fst colon_eq, value_spelled after⟩
  rw [List.append_assoc]
  exact key_spelled _

section

variable {α : Type} {items : List α} {contents : α → List (Kind × String)} {tokens : List Token}

theorem exists_otherItems (closing : Kind) {Meant : Expr → α → Prop}
    (each : ∀ item ∈ items, Conveys lowest (contents item) (Meant · item))
    (contents_eq : tokens.map Token.content =
      items.flatMap fun item => [(.comma, ",")] ++ contents item) :
    ∃ exprs, (∀ closer after, closer.kind = closing →
        Spelled (.otherItems closing exprs) (tokens ++ closer :: after) after) ∧
      List.Forall₂ Meant exprs items := by
  induction items generalizing tokens with
  | nil =>
      rw [List.map_eq_nil_iff.mp contents_eq]
      exact ⟨[], fun _ _ => .noOtherItems, .nil⟩
  | cons first rest ih =>
      rw [List.forall_mem_cons] at each
      rw [List.flatMap_cons, List.append_assoc, List.singleton_append, List.map_eq_cons_iff]
        at contents_eq
      obtain ⟨comma, others, rfl, comma_eq, others_eq⟩ := contents_eq
      obtain ⟨first_tokens, rest_tokens, rfl, first_eq, rest_eq⟩ :=
        List.map_eq_append_iff.mp others_eq
      obtain ⟨expr, expr_spelled, meant⟩ := each.1 first_tokens first_eq
      obtain ⟨exprs, spelled, all_meant⟩ := ih each.2 rest_eq
      refine ⟨expr :: exprs, fun closer after closed => ?_, .cons meant all_meant⟩
      rw [List.cons_append, List.append_assoc]
      exact .otherItems (congrArg Prod.fst comma_eq) (expr_spelled _) (spelled closer after closed)

theorem exists_items (closing : Kind) {Meant : Expr → α → Prop}
    (each : ∀ item ∈ items, Conveys lowest (contents item) (Meant · item))
    (contents_eq : tokens.map Token.content =
      [(.comma, ",")].intercalate (items.map contents)) :
    ∃ exprs, (∀ closer after, closer.kind = closing →
        Spelled (.items closing exprs) (tokens ++ closer :: after) after) ∧
      List.Forall₂ Meant exprs items := by
  cases items with
  | nil =>
      rw [List.map_eq_nil_iff.mp contents_eq]
      exact ⟨[], fun _ _ => .noItems, .nil⟩
  | cons first rest =>
      rw [List.forall_mem_cons] at each
      rw [List.map_cons, intercalate_cons_eq, List.flatMap_map] at contents_eq
      obtain ⟨first_tokens, rest_tokens, rfl, first_eq, rest_eq⟩ :=
        List.map_eq_append_iff.mp contents_eq
      obtain ⟨expr, expr_spelled, meant⟩ := each.1 first_tokens first_eq
      obtain ⟨exprs, spelled, all_meant⟩ := exists_otherItems closing each.2 rest_eq
      refine ⟨expr :: exprs, fun closer after closed => ?_, .cons meant all_meant⟩
      rw [List.append_assoc]
      exact .items (expr_spelled _) (spelled closer after closed)

theorem exists_pairs {Meant : Expr × Expr → α → Prop}
    (each : ∀ item ∈ items, ConveysPair (contents item) (Meant · item))
    (contents_eq : tokens.map Token.content =
      [(.comma, ",")].intercalate (items.map contents)) :
    ∃ pairs, (∀ closer after, closer.kind = .closeBrace →
        Spelled (.pairs pairs) (tokens ++ closer :: after) after) ∧
      List.Forall₂ Meant pairs items := by
  induction items generalizing tokens with
  | nil =>
      rw [List.map_eq_nil_iff.mp contents_eq]
      exact ⟨[], fun _ _ => .noPairs, .nil⟩
  | cons first rest ih =>
      rw [List.forall_mem_cons] at each
      cases rest with
      | nil =>
          rw [List.map_singleton, List.intercalate_singleton] at contents_eq
          obtain ⟨pair, meant, pair_spelled⟩ := each.1 tokens contents_eq
          refine ⟨[pair], fun closer after closed => ?_, .cons meant .nil⟩
          obtain ⟨colon, middle, key_spelled, separated, value_spelled⟩ :=
            pair_spelled (closer :: after)
          exact .lastPair key_spelled separated value_spelled closed
      | cons second others =>
          rw [List.map_cons, List.map_cons, List.intercalate_cons_cons, List.append_assoc]
            at contents_eq
          obtain ⟨first_tokens, rest_tokens, rfl, first_eq, rest_eq⟩ :=
            List.map_eq_append_iff.mp contents_eq
          obtain ⟨comma, other_tokens, rfl, comma_eq, others_eq⟩ := List.map_eq_cons_iff.mp rest_eq
          obtain ⟨pair, meant, pair_spelled⟩ := each.1 first_tokens first_eq
          obtain ⟨pairs, spelled, all_meant⟩ := ih each.2 others_eq
          refine ⟨pair :: pairs, fun closer after closed => ?_, .cons meant all_meant⟩
          obtain ⟨colon, middle, key_spelled, separated, value_spelled⟩ :=
            pair_spelled (comma :: other_tokens ++ closer :: after)
          rw [List.append_assoc]
          exact .pairs key_spelled separated value_spelled (congrArg Prod.fst comma_eq)
            (spelled closer after closed)

end

end MarmosetLang
