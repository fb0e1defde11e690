import MarmosetLang.Proofs.Grammar.Exactness
import MarmosetLang.Proofs.Grammar.Listing
import MarmosetLang.Proofs.Grammar.Nesting
import MarmosetLang.Proofs.Tree.Every
import MarmosetLang.Proofs.Tree.Relocation

/-!
# Renderings read back

The rendering of a tree without texts, choices and functions is a text that is parsed as the same
tree again.  Operations and selections stand in parentheses, and everything else binds as tightly as
it can, so no part is taken for a part of anything else; and no two tokens that stand side by side
are taken for one.  Statements run together unless they end with a semicolon, which an expression
that stands for itself does not.

Such a statement keeps the token that it begins with, and the rendering of its expression may begin
with another one: that of `-y` begins with a parenthesis.  So the tree read back is the same tree
only up to that token and to the places of the others.
-/

namespace MarmosetLang

open Grammar (lowest calleeStrength operandStrength)
open Token (Scans Parted contentsOf content)

/-! ## What is kept -/

/-- The statement as it is read from its rendering.  It differs in one token: for an expression that
stands for itself the first token of the rendering is kept, be it a parenthesis or not. -/
def Statement.remarked : Statement → Statement
  | .expression _ value =>
      .expression ((Token.scan value.render).headD (Token.endOf 0)) value
  | statement => statement

/-- The program as it is read from its rendering, where expressions that stand for themselves keep
the first token of that. -/
def Program.remarked (program : Program) : Program :=
  ⟨program.statements.map Statement.remarked⟩

theorem Token.relocate_eq_of_content_eq {token copy : Token} (same : copy.content = token.content) :
    copy.relocate (fun _ => 0) = token.relocate fun _ => 0 := by
  obtain ⟨kind_eq, literal_eq⟩ := Prod.mk.inj same
  rw [relocate, relocate, kind_eq, literal_eq]

theorem map_eq_map_of_forall₂ {α β γ : Type} {first : α → γ} {second : β → γ} {left : List α}
    {right : List β} (same : List.Forall₂ (fun copy item => first copy = second item) left right) :
    left.map first = right.map second := by
  rw [← List.forall₂_eq_eq_eq, List.forall₂_map_left_iff, List.forall₂_map_right_iff]
  exact same

theorem Statement.render_remarked (statement : Statement) :
    statement.remarked.render = statement.render := by
  cases statement with
  | expression token value => rw [remarked, render, render]
  | binding | returning => rfl

theorem Statement.renderAll_remarked (statements : List Statement) :
    renderAll (statements.map remarked) = renderAll statements := by
  induction statements with
  | nil => rfl
  | cons first rest ih => rw [List.map_cons, renderAll, renderAll, render_remarked, ih]

theorem Program.render_remarked (program : Program) :
    program.remarked.render = program.render :=
  Statement.renderAll_remarked program.statements

/-! ## Renderings of lists -/

theorem Expr.renderEach_eq_map (exprs : List Expr) : renderEach exprs = exprs.map render := by
  induction exprs with
  | nil => rw [renderEach, List.map_nil]
  | cons first rest ih => rw [renderEach, List.map_cons, ih]

theorem Expr.renderPairs_eq_map (pairs : List (Expr × Expr)) :
    renderPairs pairs = pairs.map fun pair => pair.1.render ++ ":" ++ pair.2.render := by
  induction pairs with
  | nil => rw [renderPairs, List.map_nil]
  | cons first rest ih => rw [renderPairs, List.map_cons, ih]

/-! ## Expressions -/

namespace Expr

/-- The contents of the rendering of an expression. -/
def contents (expr : Expr) : List (Kind × String) :=
  contentsOf expr.render.toList

/-- The contents of the rendering of a pair in a hash literal. -/
def pairContents (pair : Expr × Expr) : List (Kind × String) :=
  pair.1.contents ++ (.colon, ":") :: pair.2.contents

/-- The rendering of an expression has the same contents wherever it stands, and tokens with these
contents spell the expression, however tightly that has to bind. -/
structure IsFaithful (expr : Expr) : Prop where
  /-- The rendering has the same contents wherever it stands. -/
  legible : Scans expr.render.toList expr.contents
  /-- Tokens with these contents spell the expression. -/
  conveys : Conveys calleeStrength expr.contents fun copy =>
    copy.relocate (fun _ => 0) = expr.relocate fun _ => 0

namespace IsFaithful

variable {expr : Expr}

theorem of_scans {contents : List (Kind × String)} (scans : Scans expr.render.toList contents)
    (conveys : Conveys calleeStrength contents fun copy =>
      copy.relocate (fun _ => 0) = expr.relocate fun _ => 0) : expr.IsFaithful := by
  have contents_eq : expr.contents = contents := scans.contentsOf_eq
  rw [← contents_eq] at scans conveys
  exact ⟨scans, conveys⟩

theorem lowest (faithful : expr.IsFaithful) :
    Conveys lowest expr.contents fun copy =>
      copy.relocate (fun _ => 0) = expr.relocate fun _ => 0 :=
  faithful.conveys.mono (by decide)

/-- No rendering begins with an equals sign, because no expression begins with such a token. -/
theorem exists_front (faithful : expr.IsFaithful) :
    ∃ first more, expr.render.toList = first :: more ∧ first ≠ '=' := by
  obtain ⟨copy, spelled, -⟩ := faithful.conveys (Token.scan expr.render) rfl
  have begins : Token.nextKind (Token.scan expr.render ++ []) ∈ Kind.beginnings :=
    (spelled []).begins
  rw [List.append_nil, Token.scan] at begins
  cases text_eq : expr.render.toList with
  | nil =>
      rw [text_eq, Token.scanFrom] at begins
      exact absurd begins (by decide)
  | cons first more =>
      refine ⟨first, more, rfl, ?_⟩
      rintro rfl
      rw [text_eq, Token.scanFrom, if_neg (by decide)] at begins
      change (Lexeme.glyph '=' more).kind ∈ Kind.beginnings at begins
      rw [Lexeme.glyph] at begins
      split at begins
      · exact absurd begins (by decide)
      · exact absurd begins (by decide)

end IsFaithful

/-! ### Expressions of one token -/

theorem isFaithful_leaf (make : Token → Expr) {token : Token}
    (render_eq : (make token).render = token.literal)
    (scans : Scans token.literal.toList [token.content])
    (tight : ∀ copy, calleeStrength ≤ (make copy).strength)
    (spelled : ∀ copy after, copy.content = token.content →
      Spelled (.bare (make copy)) (copy :: after) after)
    (same : ∀ copy, copy.content = token.content →
      (make copy).relocate (fun _ => 0) = (make token).relocate fun _ => 0) :
    (make token).IsFaithful := by
  rw [← render_eq] at scans
  refine .of_scans scans fun tokens contents_eq => ?_
  obtain ⟨copy, rfl, copy_eq⟩ := List.map_eq_singleton_iff.mp contents_eq
  exact ⟨make copy, fun after => .ungrouped (tight copy) (spelled copy after copy_eq),
    same copy copy_eq⟩

theorem isFaithful_identifier {token : Token} (kind : token.kind = .identifier)
    (scans : Scans token.literal.toList [token.content]) : (identifier token).IsFaithful := by
  refine isFaithful_leaf identifier (by rw [render]) scans (fun _ => Nat.le_refl _)
    (fun copy after copy_eq => ?_) fun copy copy_eq => ?_
  · exact .identifier ((congrArg Prod.fst copy_eq).trans kind)
  · simp only [relocate, Token.relocate_eq_of_content_eq copy_eq]

theorem isFaithful_integer {token : Token} (kind : token.kind = .integer)
    (short : token.literal.length ≤ Grammar.maxDigits)
    (small : Decimal.value token.literal ≤ Grammar.maxInteger)
    (scans : Scans token.literal.toList [token.content]) :
    (integer token (Decimal.value token.literal)).IsFaithful := by
  refine isFaithful_leaf (fun copy => integer copy (Decimal.value copy.literal)) (by rw [render])
    scans (fun _ => Nat.le_refl _) (fun copy after copy_eq => ?_) fun copy copy_eq => ?_
  · obtain ⟨kind_eq, literal_eq⟩ := Prod.mk.inj copy_eq
    rw [← literal_eq] at short small
    exact .integer (kind_eq.trans kind) short small
  · have literal_eq : copy.literal = token.literal := congrArg Prod.snd copy_eq
    simp only [relocate, Token.relocate_eq_of_content_eq copy_eq, literal_eq]

theorem isFaithful_boolean {token : Token} (kind : token.kind = .trueWord ∨ token.kind = .falseWord)
    (scans : Scans token.literal.toList [token.content]) : (boolean token).IsFaithful := by
  refine isFaithful_leaf boolean (by rw [render]) scans (fun _ => Nat.le_refl _)
    (fun copy after copy_eq => ?_) fun copy copy_eq => ?_
  · have kind_eq : copy.kind = token.kind := congrArg Prod.fst copy_eq
    rw [← kind_eq] at kind
    exact .boolean kind
  · simp only [relocate, Token.relocate_eq_of_content_eq copy_eq]

/-! ### Lists -/

theorem scans_each {exprs : List Expr} (each : ∀ expr ∈ exprs, expr.IsFaithful) :
    List.Forall₂ (fun text contents => Scans text.toList contents) (renderEach exprs)
      (exprs.map contents) := by
  rw [renderEach_eq_map, List.forall₂_map_left_iff, List.forall₂_map_right_iff, List.forall₂_same]
  exact fun expr member => (each expr member).legible

/-- Tokens with the contents of some renderings, with commas between them, from an opener to a
closer spell the expressions up to that closer. -/
theorem exists_listed {exprs : List Expr} (each : ∀ expr ∈ exprs, expr.IsFaithful)
    {opening closing : Kind × String} {tokens : List Token}
    (contents_eq : tokens.map content =
      opening :: ([(.comma, ",")].intercalate (exprs.map contents) ++ [closing])) :
    ∃ opener rest copies, tokens = opener :: rest ∧ opener.content = opening ∧
      (∀ after, Spelled (.items closing.1 copies) (rest ++ after) after) ∧
      copies.map (relocate fun _ => 0) = exprs.map (relocate fun _ => 0) := by
  obtain ⟨opener, inside, closer, tokens_eq, opener_eq, inside_eq, closer_eq⟩ :=
    Token.exists_enclosed contents_eq
  obtain ⟨copies, spelled, same⟩ :=
    exists_items closing.1 (fun expr member => (each expr member).lowest) inside_eq
  refine ⟨opener, _, copies, tokens_eq, opener_eq, fun after => ?_, map_eq_map_of_forall₂ same⟩
  rw [List.append_assoc]
  exact spelled closer after (congrArg Prod.fst closer_eq)

theorem isFaithful_array {token : Token} {elements : List Expr}
    (opened : token.content = (.openBracket, Kind.openBracket.name))
    (each : ∀ element ∈ elements, element.IsFaithful) : (array token elements).IsFaithful := by
  have scans := Scans.listing (by decide : Kind.openBracket.IsMark '[')
    (by decide : Kind.closeBracket.IsMark ']') (scans_each each)
  have text_eq : (array token elements).render.toList =
      '[' :: ((", ".intercalate (renderEach elements)).toList ++ [']']) := by
    rw [render, String.toList_append, String.toList_append]
    rfl
  rw [← text_eq] at scans
  refine .of_scans scans fun tokens contents_eq => ?_
  obtain ⟨opener, rest, copies, rfl, opener_eq, closes, same⟩ := exists_listed each contents_eq
  refine ⟨array opener copies, fun after => .ungrouped (Nat.le_refl _) ?_, ?_⟩
  · exact .array (congrArg Prod.fst opener_eq) (closes after)
  · simp only [relocate, relocateEach_eq_map, same,
      Token.relocate_eq_of_content_eq (opener_eq.trans opened.symm)]

theorem isFaithful_hash {token : Token} {pairs : List (Expr × Expr)}
    (opened : token.content = (.openBrace, Kind.openBrace.name))
    (keys : ∀ pair ∈ pairs, pair.1.IsFaithful) (values : ∀ pair ∈ pairs, pair.2.IsFaithful) :
    (hash token pairs).IsFaithful := by
  have each : List.Forall₂ (fun text contents => Scans text.toList contents) (renderPairs pairs)
      (pairs.map pairContents) := by
    rw [renderPairs_eq_map, List.forall₂_map_left_iff, List.forall₂_map_right_iff,
      List.forall₂_same]
    intro pair member
    have scans : Scans (pair.1.render.toList ++ ':' :: pair.2.render.toList) (pairContents pair) :=
      .append_mark (by decide : Kind.colon.IsMark ':') (keys pair member).legible
        (values pair member).legible
    rw [String.toList_append, String.toList_append, List.append_assoc]
    exact scans
  have scans := Scans.listing (by decide : Kind.openBrace.IsMark '\x7b')
    (by decide : Kind.closeBrace.IsMark '\x7d') each
  have text_eq : (hash token pairs).render.toList =
      '\x7b' :: ((", ".intercalate (renderPairs pairs)).toList ++ ['\x7d']) := by
    rw [render, String.toList_append, String.toList_append]
    rfl
  rw [← text_eq] at scans
  refine .of_scans scans fun tokens contents_eq => ?_
  obtain ⟨opener, inside, closer, rfl, opener_eq, inside_eq, closer_eq⟩ :=
    Token.exists_enclosed contents_eq
  obtain ⟨copies, spelled, same⟩ := exists_pairs
    (fun pair member => (keys pair member).lowest.pair (values pair member).lowest) inside_eq
  refine ⟨hash opener copies, fun after => .ungrouped (Nat.le_refl _) ?_, ?_⟩
  · rw [List.cons_append, List.append_assoc]
    exact .hash (congrArg Prod.fst opener_eq) (spelled closer after (congrArg Prod.fst closer_eq))
  · have pairs_eq : copies.map (fun pair =>
          (pair.1.relocate fun _ => 0, pair.2.relocate fun _ => 0)) =
        pairs.map fun pair => (pair.1.relocate fun _ => 0, pair.2.relocate fun _ => 0) :=
      map_eq_map_of_forall₂ (same.imp fun _ _ both => Prod.ext both.1 both.2)
    simp only [relocate, relocatePairs_eq_map, pairs_eq,
      Token.relocate_eq_of_content_eq (opener_eq.trans opened.symm)]

/-- Nothing is needed around a call, not even where it is itself called. -/
theorem isFaithful_call {token : Token} {callee : Expr} {arguments : List Expr}
    (opened : token.content = (.openParen, Kind.openParen.name)) (called : callee.IsFaithful)
    (each : ∀ argument ∈ arguments, argument.IsFaithful) :
    (call token callee arguments).IsFaithful := by
  have is_opener : Kind.openParen.IsMark '(' := by decide
  have scans := called.legible.append
    (Scans.listing is_opener (by decide : Kind.closeParen.IsMark ')') (scans_each each))
    (List.cons_ne_nil _ _) (Token.parted_of_isMark is_opener _)
  have text_eq : (call token callee arguments).render.toList =
      callee.render.toList ++
        '(' :: ((", ".intercalate (renderEach arguments)).toList ++ [')']) := by
    rw [render, String.toList_append, String.toList_append, String.toList_append,
      List.append_assoc, List.append_assoc]
    rfl
  rw [← text_eq] at scans
  refine .of_scans scans fun tokens contents_eq => ?_
  obtain ⟨callee_tokens, rest, rfl, callee_eq, rest_eq⟩ := List.map_eq_append_iff.mp contents_eq
  obtain ⟨opener, inside, copies, rfl, opener_eq, closes, same⟩ := exists_listed each rest_eq
  obtain ⟨callee_copy, callee_spelled, callee_same⟩ := called.conveys callee_tokens callee_eq
  refine ⟨call opener callee_copy copies, fun after => .ungrouped (Nat.le_refl _) ?_, ?_⟩
  · rw [List.append_assoc]
    exact .call (congrArg Prod.fst opener_eq) (callee_spelled _) (closes after)
  · simp only [relocate, relocateEach_eq_map, same, callee_same,
      Token.relocate_eq_of_content_eq (opener_eq.trans opened.symm)]

/-! ### Operations and selections -/

/-- What stands in parentheses may stand anywhere. -/
theorem isFaithful_grouped {expr : Expr} {inside : List Char} {contents : List (Kind × String)}
    (text_eq : expr.render.toList = '(' :: (inside ++ [')'])) (scans : Scans inside contents)
    (conveys : Conveys Grammar.lowest contents fun copy =>
      copy.relocate (fun _ => 0) = expr.relocate fun _ => 0) : expr.IsFaithful := by
  have enclosed := Scans.enclosed (by decide : Kind.closeParen.IsMark ')')
    (by decide : Kind.openParen.IsMark '(') scans
  rw [← text_eq] at enclosed
  refine .of_scans enclosed fun tokens contents_eq => ?_
  obtain ⟨opener, middle, closer, rfl, opener_eq, middle_eq, closer_eq⟩ :=
    Token.exists_enclosed contents_eq
  obtain ⟨copy, spelled, same⟩ := conveys middle middle_eq
  refine ⟨copy, fun after => ?_, same⟩
  rw [List.cons_append, List.append_assoc]
  exact .grouped (congrArg Prod.fst opener_eq) (spelled (closer :: after))
    (congrArg Prod.fst closer_eq)

theorem isFaithful_prefixed {operator : Token} {operand : Expr}
    (kind : operator.kind = .bang ∨ operator.kind = .minus)
    (content_eq : operator.content = (operator.kind, operator.kind.name))
    (faithful : operand.IsFaithful) : (prefixed operator operand).IsFaithful := by
  have literal_eq : operator.literal = operator.kind.name := congrArg Prod.snd content_eq
  have scans : Scans (operator.literal.toList ++ operand.render.toList)
      (operator.content :: operand.contents) := by
    obtain ⟨first, more, front_eq, no_equals⟩ := faithful.exists_front
    have legible := faithful.legible
    rw [content_eq, literal_eq]
    rw [front_eq] at legible ⊢
    rcases kind with kind | kind
    · rw [kind]
      exact .glyph_cons (by decide) rfl no_equals legible
    · rw [kind]
      exact .glyph_cons (by decide) rfl no_equals legible
  have text_eq : (prefixed operator operand).render.toList =
      '(' :: (operator.literal.toList ++ operand.render.toList ++ [')']) := by
    rw [render, String.toList_append, String.toList_append, String.toList_append,
      List.append_assoc, List.append_assoc, List.append_assoc]
    rfl
  refine isFaithful_grouped text_eq scans fun tokens contents_eq => ?_
  obtain ⟨sign, rest, rfl, sign_eq, rest_eq⟩ := List.map_eq_cons_iff.mp contents_eq
  obtain ⟨copy, spelled, same⟩ := faithful.conveys rest rest_eq
  have sign_kind : sign.kind = operator.kind := congrArg Prod.fst sign_eq
  rw [← sign_kind] at kind
  refine ⟨prefixed sign copy, fun after => ?_, ?_⟩
  · exact Spelled.lowest (.prefixed kind ((spelled after).mono (by decide)))
  · simp only [relocate, same, Token.relocate_eq_of_content_eq sign_eq]

theorem isFaithful_infixed {operator : Token} {left right : Expr}
    (kind : operator.kind ∈ Kind.infixes)
    (content_eq : operator.content = (operator.kind, operator.kind.name))
    (on_left : left.IsFaithful) (on_right : right.IsFaithful) :
    (infixed operator left right).IsFaithful := by
  have literal_eq : operator.literal = operator.kind.name := congrArg Prod.snd content_eq
  have listed : operator.kind ∈ Kind.glyphs := by
    have all : ∀ kind ∈ Kind.infixes, kind ∈ Kind.glyphs := by decide
    exact all _ kind
  have scans : Scans
      (left.render.toList ++ ' ' :: (operator.literal.toList ++ ' ' :: right.render.toList))
      (left.contents ++ operator.content :: right.contents) := by
    rw [content_eq, literal_eq]
    exact .append_layout (by decide) on_left.legible
      (.glyph_append listed (by decide) on_right.legible)
  have text_eq : (infixed operator left right).render.toList =
      '(' :: (left.render.toList ++
        ' ' :: (operator.literal.toList ++ ' ' :: right.render.toList) ++ [')']) := by
    rw [render]
    simp only [String.toList_append, List.append_assoc, List.cons_append]
    rfl
  refine isFaithful_grouped text_eq scans fun tokens contents_eq => ?_
  obtain ⟨left_tokens, rest, rfl, left_eq, rest_eq⟩ := List.map_eq_append_iff.mp contents_eq
  obtain ⟨sign, right_tokens, rfl, sign_eq, right_eq⟩ := List.map_eq_cons_iff.mp rest_eq
  obtain ⟨left_copy, left_spelled, left_same⟩ := on_left.conveys left_tokens left_eq
  obtain ⟨right_copy, right_spelled, right_same⟩ := on_right.conveys right_tokens right_eq
  have sign_kind : sign.kind = operator.kind := congrArg Prod.fst sign_eq
  rw [← sign_kind] at kind
  -- Operands bind as tightly as callees, which is more tightly than any operator asks for.
  have left_tight := Grammar.strength_le sign.kind
  have right_tight : Grammar.strength sign.kind + 1 ≤ calleeStrength :=
    Nat.le_trans (Grammar.strength_lt_of_mem_infixes kind).2 (by decide)
  refine ⟨infixed sign left_copy right_copy, fun after => ?_, ?_⟩
  · rw [List.append_assoc]
    exact Spelled.lowest (.infixed kind ((left_spelled _).mono left_tight)
      ((right_spelled after).mono right_tight))
  · simp only [relocate, left_same, right_same,
      Token.relocate_eq_of_content_eq sign_eq]

theorem isFaithful_index {token : Token} {container position : Expr}
    (opened : token.content = (.openBracket, Kind.openBracket.name))
    (whence : container.IsFaithful) (place : position.IsFaithful) :
    (index token container position).IsFaithful := by
  have scans : Scans (container.render.toList ++ '[' :: (position.render.toList ++ [']']))
      (container.contents ++ (.openBracket, Kind.openBracket.name) ::
        (position.contents ++ [(.closeBracket, Kind.closeBracket.name)])) :=
    .append_mark (by decide : Kind.openBracket.IsMark '[') whence.legible
      (.append_mark (by decide : Kind.closeBracket.IsMark ']') place.legible .nil)
  have text_eq : (index token container position).render.toList =
      '(' :: (container.render.toList ++ '[' :: (position.render.toList ++ [']']) ++ [')']) := by
    rw [render]
    simp only [String.toList_append, List.append_assoc, List.cons_append]
    rfl
  refine isFaithful_grouped text_eq scans fun tokens contents_eq => ?_
  obtain ⟨container_tokens, rest, rfl, container_eq, rest_eq⟩ :=
    List.map_eq_append_iff.mp contents_eq
  obtain ⟨opener, inside, closer, rfl, opener_eq, inside_eq, closer_eq⟩ :=
    Token.exists_enclosed rest_eq
  obtain ⟨container_copy, container_spelled, container_same⟩ :=
    whence.conveys container_tokens container_eq
  obtain ⟨position_copy, position_spelled, position_same⟩ := place.lowest inside inside_eq
  refine ⟨index opener container_copy position_copy, fun after => ?_, ?_⟩
  · rw [List.append_assoc, List.cons_append, List.append_assoc]
    exact Spelled.lowest (.index (congrArg Prod.fst opener_eq) (container_spelled _)
      (position_spelled (closer :: after)) (congrArg Prod.fst closer_eq))
  · simp only [relocate, container_same, position_same,
      Token.relocate_eq_of_content_eq (opener_eq.trans opened.symm)]

end Expr

/-! ## Statements -/

namespace Statement

/-- The contents of the rendering of a statement. -/
def contents (statement : Statement) : List (Kind × String) :=
  contentsOf statement.render.toList

/-- The rendering of a statement ends with a semicolon. -/
def IsConcluded : Statement → Prop
  | expression _ _ => False
  | _ => True

/-- The rendering of a statement has the same contents wherever it stands, and tokens with these
contents spell the statement, unless it has no semicolon and might go on. -/
structure IsFaithful (statement : Statement) : Prop where
  /-- The rendering has the same contents wherever it stands. -/
  legible : ∀ rest, statement.IsConcluded ∨ Parted rest →
    contentsOf (statement.render.toList ++ rest) = statement.contents ++ contentsOf rest
  /-- Tokens with these contents spell the statement as it is read from its rendering. -/
  conveys : ∀ tokens : List Token, tokens.map content = statement.contents →
    ∃ copy : Statement, copy.relocate (fun _ => 0) = statement.remarked.relocate (fun _ => 0) ∧
      ∀ after, statement.IsConcluded ∨ Token.nextKind after ∉ Kind.extensions →
        Spelled (.statement copy) (tokens ++ after) after

/-- A semicolon ends a statement, whatever stands behind it. -/
theorem isFaithful_concluded {statement : Statement} {text : List Char}
    {contents : List (Kind × String)} (text_eq : statement.render.toList = text ++ [';'])
    (scans : Scans text contents)
    (conveys : ∀ tokens : List Token, tokens.map content = contents →
      ∃ copy : Statement,
        copy.relocate (fun _ => 0) = statement.remarked.relocate (fun _ => 0) ∧
        ∀ (semicolon : Token) after, semicolon.kind = .semicolon →
          Spelled (.statement copy) (tokens ++ semicolon :: after) after) :
    statement.IsFaithful := by
  have is_mark : Kind.semicolon.IsMark ';' := by decide
  have legible (rest : List Char) : contentsOf (statement.render.toList ++ rest) =
      contents ++ (.semicolon, Kind.semicolon.name) :: contentsOf rest := by
    rw [text_eq, List.append_assoc, List.singleton_append,
      scans _ (Token.parted_of_isMark is_mark rest), Token.contentsOf_mark_cons is_mark]
  have contents_eq : statement.contents = contents ++ [(.semicolon, Kind.semicolon.name)] := by
    have alone := legible []
    rwa [List.append_nil, Token.contentsOf_nil] at alone
  refine ⟨fun rest _ => ?_, fun tokens tokens_eq => ?_⟩
  · rw [legible rest, contents_eq, List.append_assoc, List.singleton_append]
  · rw [contents_eq] at tokens_eq
    obtain ⟨front, ending, rfl, front_eq, ending_eq⟩ := List.map_eq_append_iff.mp tokens_eq
    obtain ⟨semicolon, rfl, semicolon_eq⟩ := List.map_eq_singleton_iff.mp ending_eq
    obtain ⟨copy, same, spelled⟩ := conveys front front_eq
    refine ⟨copy, same, fun after _ => ?_⟩
    rw [List.append_assoc, List.singleton_append]
    exact spelled semicolon after (congrArg Prod.fst semicolon_eq)

theorem isFaithful_binding {token name : Token} {value : Expr}
    (content_eq : token.content = (.letWord, "let")) (named : name.kind = .identifier)
    (name_scans : Scans name.literal.toList [name.content]) (faithful : value.IsFaithful) :
    (binding token name value).IsFaithful := by
  have word : Scans ['l', 'e', 't'] [(.letWord, "let")] :=
    .word (by decide) (List.all_eq_true.mp (by decide)) (by decide)
  have scans := word.append_layout (by decide : isLayout ' ' = true)
    (name_scans.append_layout (by decide : isLayout ' ' = true)
      (.glyph_append (by decide : Kind.assign ∈ Kind.glyphs) (by decide : isLayout ' ' = true)
        faithful.legible))
  refine isFaithful_concluded ?_ scans fun tokens tokens_eq => ?_
  · rw [render]
    simp only [String.toList_append, List.append_assoc, List.cons_append]
    rfl
  · obtain ⟨first, others, rfl, first_eq, others_eq⟩ := List.map_eq_cons_iff.mp tokens_eq
    obtain ⟨second, others, rfl, second_eq, others_eq⟩ := List.map_eq_cons_iff.mp others_eq
    obtain ⟨assign, rest, rfl, assign_eq, rest_eq⟩ := List.map_eq_cons_iff.mp others_eq
    obtain ⟨copy, spelled, same⟩ := faithful.lowest rest rest_eq
    have second_kind : second.kind = .identifier := (congrArg Prod.fst second_eq).trans named
    refine ⟨binding first second copy, ?_, fun semicolon after kind => ?_⟩
    · simp only [remarked, relocate, same, Token.relocate_eq_of_content_eq second_eq,
        Token.relocate_eq_of_content_eq (first_eq.trans content_eq.symm)]
    · exact .binding (congrArg Prod.fst first_eq) second_kind (congrArg Prod.fst assign_eq)
        (spelled _) (.semicolon kind)

theorem isFaithful_returning {token : Token} {value : Expr}
    (content_eq : token.content = (.returnWord, "return")) (faithful : value.IsFaithful) :
    (returning token value).IsFaithful := by
  have word : Scans ['r', 'e', 't', 'u', 'r', 'n'] [(.returnWord, "return")] :=
    .word (by decide) (List.all_eq_true.mp (by decide)) (by decide)
  have scans := word.append_layout (by decide : isLayout ' ' = true) faithful.legible
  refine isFaithful_concluded ?_ scans fun tokens tokens_eq => ?_
  · rw [render]
    simp only [String.toList_append, List.append_assoc, List.cons_append]
    rfl
  · obtain ⟨first, rest, rfl, first_eq, rest_eq⟩ := List.map_eq_cons_iff.mp tokens_eq
    obtain ⟨copy, spelled, same⟩ := faithful.lowest rest rest_eq
    refine ⟨returning first copy, ?_, fun semicolon after kind => ?_⟩
    · simp only [remarked, relocate, same,
        Token.relocate_eq_of_content_eq (first_eq.trans content_eq.symm)]
    · exact .returning (congrArg Prod.fst first_eq) (spelled _) (.semicolon kind)

theorem isFaithful_expression (token : Token) {value : Expr} (faithful : value.IsFaithful) :
    (expression token value).IsFaithful := by
  have render_eq : (expression token value).render = value.render := by rw [render]
  have contents_eq : (expression token value).contents = value.contents := by
    rw [contents, render_eq, Expr.contents]
  refine ⟨fun rest parted => ?_, fun tokens tokens_eq => ?_⟩
  · rw [contents_eq, render_eq]
    exact faithful.legible rest (parted.resolve_left id)
  · rw [contents_eq] at tokens_eq
    obtain ⟨copy, spelled, same⟩ := faithful.lowest tokens tokens_eq
    -- The copy keeps the first of the tokens, which has the content of the first in the rendering.
    obtain ⟨first, others, rfl⟩ : ∃ first others, tokens = first :: others := by
      refine List.exists_cons_of_length_pos ?_
      have shorter := (spelled []).length_after
      rw [List.append_nil] at shorter
      exact Nat.lt_of_lt_of_le Nat.zero_lt_one (Nat.le_of_add_left_le shorter)
    obtain ⟨mark, rest, scan_eq, first_eq, -⟩ := List.map_eq_cons_iff.mp tokens_eq.symm
    refine ⟨expression first copy, ?_, fun after next => ?_⟩
    · have scanned : Token.scan value.render = mark :: rest := scan_eq
      rw [remarked, scanned, List.headD_cons, relocate, relocate, same,
        Token.relocate_eq_of_content_eq first_eq.symm]
    · exact .standing (spelled after) (.omitted (next.resolve_left id))

/-- Tokens with the contents of the renderings of statements spell the statements, if only the last
one may have no semicolon. -/
theorem exists_spelled {statements : List Statement}
    (each : ∀ statement ∈ statements, statement.IsFaithful)
    (concluded : ∀ statement ∈ statements.dropLast, statement.IsConcluded) {tokens : List Token}
    (tokens_eq : tokens.map content = contentsOf (renderAll statements).toList) :
    ∃ copies, Spelled (.statements copies) tokens [] ∧
      copies.map (relocate fun _ => 0) =
        statements.map fun statement => statement.remarked.relocate fun _ => 0 := by
  induction statements generalizing tokens with
  | nil =>
      rw [List.map_eq_nil_iff.mp (tokens_eq.trans Token.contentsOf_nil)]
      exact ⟨[], .noStatements, rfl⟩
  | cons first rest ih =>
      rw [List.forall_mem_cons] at each
      have ended : first.IsConcluded ∨ rest = [] := by
        cases rest with
        | nil => exact .inr rfl
        | cons second others => exact .inl (concluded first List.mem_cons_self)
      have rest_concluded : ∀ statement ∈ rest.dropLast, statement.IsConcluded := by
        cases rest with
        | nil => exact List.forall_mem_nil _
        | cons second others =>
            exact fun statement member => concluded statement (List.mem_cons_of_mem _ member)
      have parted : first.IsConcluded ∨ Parted (renderAll rest).toList := by
        refine ended.imp_right ?_
        rintro rfl
        exact nofun
      rw [renderAll, String.toList_append, each.1.legible _ parted] at tokens_eq
      obtain ⟨first_tokens, rest_tokens, rfl, first_eq, rest_eq⟩ :=
        List.map_eq_append_iff.mp tokens_eq
      obtain ⟨copy, same, spelled⟩ := each.1.conveys first_tokens first_eq
      obtain ⟨copies, all_spelled, all_same⟩ := ih each.2 rest_concluded rest_eq
      refine ⟨copy :: copies, .statements (spelled rest_tokens ?_) all_spelled, ?_⟩
      · refine ended.imp_right ?_
        rintro rfl
        rw [List.map_eq_nil_iff.mp (rest_eq.trans Token.contentsOf_nil)]
        decide
      · rw [List.map_cons, List.map_cons, same, all_same]

end Statement

/-! ## Whole programs -/

/-- An expression is neither a text, nor a choice, nor a function. -/
def Expr.IsSimple : Expr → Prop
  | string _ | conditional _ _ _ _ | function _ _ _ => False
  | _ => True

/-- The parts of a phrase are rendered faithfully if all expressions in them are simple. -/
def Phrase.IsFaithful : Phrase → Prop
  | .bare value | .expression _ value => value.Every Expr.IsSimple → value.IsFaithful
  | .items _ values | .otherItems _ values =>
      (∀ value ∈ values, value.Every Expr.IsSimple) → ∀ value ∈ values, value.IsFaithful
  | .pairs values =>
      (∀ pair ∈ values, pair.1.Every Expr.IsSimple) →
        (∀ pair ∈ values, pair.2.Every Expr.IsSimple) →
          ∀ pair ∈ values, pair.1.IsFaithful ∧ pair.2.IsFaithful
  | .block _ => True
  | .statement value => value.Every Expr.IsSimple → value.IsFaithful
  | .statements values =>
      (∀ value ∈ values, value.Every Expr.IsSimple) → ∀ value ∈ values, value.IsFaithful

/-- The literal of a token is one that its kind may have. -/
def Token.IsProper (token : Token) : Prop :=
  token.kind.Carries token.literal.toList

namespace Token.IsProper

variable {token : Token} (proper : token.IsProper)
include proper

theorem content_eq_of_glyph {kind : Kind} (kind_eq : token.kind = kind)
    (listed : kind ∈ Kind.glyphs) : token.content = (kind, kind.name) := by
  subst kind_eq
  exact Prod.ext rfl (String.toList_inj.mp (proper.eq_of_mem_glyphs listed))

theorem content_eq_of_keyword {kind : Kind} {word : String} (kind_eq : token.kind = kind)
    (listed : (word, kind) ∈ Kind.keywords) : token.content = (kind, word) := by
  subst kind_eq
  exact Prod.ext rfl (String.toList_inj.mp (proper.eq_of_mem_keywords listed))

theorem scans {kind : Kind} (kind_eq : token.kind = kind)
    (plain : kind ∉ .string :: .illegal :: Kind.glyphs) :
    Scans token.literal.toList [token.content] := by
  subst kind_eq
  have scans := Scans.of_carries proper plain
  rwa [String.ofList_toList] at scans

end Token.IsProper

theorem Spelled.forall_isProper {phrase : Phrase} {before after : List Token}
    (spelled : Spelled phrase before after) (proper : ∀ token ∈ before, token.IsProper) :
    ∀ token ∈ after, token.IsProper :=
  fun token member => proper token (spelled.suffix.subset member)

/-- Where the tokens are proper ones, whatever they spell is rendered faithfully.  The induction is
on the spelling, because that is what says which tokens the nodes of a tree keep. -/
theorem Spelled.isFaithful {phrase : Phrase} {before after : List Token}
    (spelled : Spelled phrase before after) (proper : ∀ token ∈ before, token.IsProper) :
    phrase.IsFaithful := by
  induction spelled with
  | identifier kind =>
      rw [List.forall_mem_cons] at proper
      exact fun _ => Expr.isFaithful_identifier kind (proper.1.scans kind (by decide))
  | integer kind short small =>
      rw [List.forall_mem_cons] at proper
      exact fun _ => Expr.isFaithful_integer kind short small (proper.1.scans kind (by decide))
  | string | conditional | alternative | function => exact fun every => every.here.elim
  | boolean kind =>
      rw [List.forall_mem_cons] at proper
      refine fun _ => Expr.isFaithful_boolean kind ?_
      rcases kind with kind | kind
      · exact proper.1.scans kind (by decide)
      · exact proper.1.scans kind (by decide)
  | array kind _ inside =>
      rw [List.forall_mem_cons] at proper
      intro every
      cases every with
      | array _ elements =>
          exact Expr.isFaithful_array (proper.1.content_eq_of_glyph kind (by decide))
            (inside proper.2 elements)
  | hash kind _ inside =>
      rw [List.forall_mem_cons] at proper
      intro every
      cases every with
      | hash _ keys values =>
          have each := inside proper.2 keys values
          exact Expr.isFaithful_hash (proper.1.content_eq_of_glyph kind (by decide))
            (fun pair member => (each pair member).1) fun pair member => (each pair member).2
  | prefixed kind _ operand =>
      rw [List.forall_mem_cons] at proper
      intro every
      cases every with
      | prefixed _ inside =>
          refine Expr.isFaithful_prefixed kind (proper.1.content_eq_of_glyph rfl ?_)
            (operand proper.2 inside)
          rcases kind with kind | kind <;> rw [kind] <;> decide
  | infixed kind left_spelled _ left right =>
      obtain ⟨here, later⟩ := List.forall_mem_cons.mp (left_spelled.forall_isProper proper)
      intro every
      cases every with
      | infixed _ on_left on_right =>
          have all : ∀ kind ∈ Kind.infixes, kind ∈ Kind.glyphs := by decide
          exact Expr.isFaithful_infixed kind (here.content_eq_of_glyph rfl (all _ kind))
            (left proper on_left) (right later on_right)
  | call kind callee_spelled _ callee arguments =>
      obtain ⟨here, later⟩ := List.forall_mem_cons.mp (callee_spelled.forall_isProper proper)
      intro every
      cases every with
      | call _ called given =>
          exact Expr.isFaithful_call (here.content_eq_of_glyph kind (by decide))
            (callee proper called) (arguments later given)
  | index kind container_spelled _ _ container position =>
      obtain ⟨here, later⟩ := List.forall_mem_cons.mp (container_spelled.forall_isProper proper)
      intro every
      cases every with
      | index _ whence place =>
          exact Expr.isFaithful_index (here.content_eq_of_glyph kind (by decide))
            (container proper whence) (position later place)
  | ungrouped _ _ bare => exact bare proper
  | grouped _ _ _ inside =>
      rw [List.forall_mem_cons] at proper
      exact inside proper.2
  | noItems | noOtherItems => exact fun _ => List.forall_mem_nil _
  | items first_spelled _ first others =>
      intro every
      rw [List.forall_mem_cons] at every ⊢
      exact ⟨first proper every.1, others (first_spelled.forall_isProper proper) every.2⟩
  | otherItems _ first_spelled _ first others =>
      rw [List.forall_mem_cons] at proper
      intro every
      rw [List.forall_mem_cons] at every ⊢
      exact ⟨first proper.2 every.1, others (first_spelled.forall_isProper proper.2) every.2⟩
  | noPairs => exact fun _ _ => List.forall_mem_nil _
  | lastPair key_spelled _ _ _ key value =>
      obtain ⟨-, later⟩ := List.forall_mem_cons.mp (key_spelled.forall_isProper proper)
      intro keys values
      rw [List.forall_mem_singleton] at keys values ⊢
      exact ⟨key proper keys, value later values⟩
  | pairs key_spelled _ value_spelled _ _ key value others =>
      obtain ⟨-, later⟩ := List.forall_mem_cons.mp (key_spelled.forall_isProper proper)
      intro keys values
      rw [List.forall_mem_cons] at keys values ⊢
      obtain ⟨-, last⟩ := List.forall_mem_cons.mp (value_spelled.forall_isProper later)
      exact ⟨⟨key proper keys.1, value later values.1⟩, others last keys.2 values.2⟩
  | block | openBlock => exact trivial
  | binding kind named _ _ _ value =>
      rw [List.forall_mem_cons, List.forall_mem_cons, List.forall_mem_cons] at proper
      obtain ⟨here, name, -, later⟩ := proper
      intro every
      cases every with
      | binding inside =>
          exact Statement.isFaithful_binding (here.content_eq_of_keyword kind (by decide)) named
            (name.scans named (by decide)) (value later inside)
  | returning kind _ _ value =>
      rw [List.forall_mem_cons] at proper
      intro every
      cases every with
      | returning inside =>
          exact Statement.isFaithful_returning
            (proper.1.content_eq_of_keyword kind (by decide)) (value proper.2 inside)
  | standing _ _ value =>
      intro every
      cases every with
      | expression inside => exact Statement.isFaithful_expression _ (value proper inside)
  | noStatements => exact fun _ => List.forall_mem_nil _
  | statements first_spelled _ first others =>
      intro every
      rw [List.forall_mem_cons] at every ⊢
      exact ⟨first proper every.1, others (first_spelled.forall_isProper proper) every.2⟩

namespace Grammar

/-- A text is parsed without complaint, as a program of simple expressions in which only the last
statement may be one that has no semicolon in its rendering. -/
structure ReadsPlainly (text : String) (program : Program) : Prop where
  /-- Nothing is complained of. -/
  clean : ∃ dropped, parseText text = .ok ⟨program, [], dropped⟩
  /-- There is neither a text, nor a choice, nor a function. -/
  simple : program.Every Expr.IsSimple
  /-- All statements but the last one are bindings or hand values back. -/
  concluded : ∀ statement ∈ program.statements.dropLast, statement.IsConcluded

theorem ReadsPlainly.exists_copy {text : String} {program : Program}
    (plainly : ReadsPlainly text program) :
    ∃ copy, parseText program.render = .ok ⟨copy, [], 0⟩ ∧
      copy.relocate (fun _ => 0) = program.remarked.relocate fun _ => 0 := by
  obtain ⟨dropped, parse_eq⟩ := plainly.clean
  have spelled : program.Spelled (Token.scan text) := spelled_of_parse parse_eq rfl
  have proper : ∀ token ∈ Token.scan text, token.IsProper := fun _ => Token.carries_of_mem_scan
  have faithful : ∀ statement ∈ program.statements, statement.IsFaithful :=
    Spelled.isFaithful spelled proper plainly.simple
  have tokens_eq : (Token.scan program.render).map content = contentsOf program.render.toList := rfl
  obtain ⟨copies, copies_spelled, same⟩ :=
    Statement.exists_spelled faithful plainly.concluded tokens_eq
  refine ⟨⟨copies⟩, parseText_of_spelled copies_spelled, congrArg Program.mk ?_⟩
  rw [Statement.relocateAll_eq_map, Statement.relocateAll_eq_map, same, Program.remarked,
    List.map_map]
  rfl

/-- The rendering of such a program is parsed without complaint as the same program with its tokens
at other places, save that an expression that stands for itself now keeps the first token of its
rendering; and so the rendering of that is no other text.  Two such programs with the same rendering
differ in nothing but the places of their tokens and the tokens that such expressions keep. -/
theorem rendering_reads_back :
    (∀ text program, ReadsPlainly text program →
      ∃ copy, parseText program.render = .ok ⟨copy, [], 0⟩ ∧
        copy.relocate (fun _ => 0) = program.remarked.relocate (fun _ => 0) ∧
        copy.render = program.render) ∧
    ∀ text other program second, ReadsPlainly text program → ReadsPlainly other second →
      program.render = second.render →
      program.remarked.relocate (fun _ => 0) = second.remarked.relocate fun _ => 0 := by
  constructor
  · intro text program plainly
    obtain ⟨copy, parse_eq, same⟩ := plainly.exists_copy
    refine ⟨copy, parse_eq, same, ?_⟩
    calc copy.render = (copy.relocate fun _ => 0).render := (copy.render_relocate _).symm
      _ = (program.remarked.relocate fun _ => 0).render := by rw [same]
      _ = program.remarked.render := program.remarked.render_relocate _
      _ = program.render := program.render_remarked
  · intro text other program second plainly second_plainly render_eq
    obtain ⟨copy, parse_eq, same⟩ := plainly.exists_copy
    obtain ⟨second_copy, second_parse_eq, second_same⟩ := second_plainly.exists_copy
    rw [render_eq, second_parse_eq] at parse_eq
    cases parse_eq
    exact same.symm.trans second_same

/-- The opposite of the value of a name. -/
def sampleOpposite (offset : Nat) : Expr :=
  .prefixed ⟨.minus, "-", offset⟩ (.identifier ⟨.identifier, "y", offset + 1⟩)

theorem spelled_sampleOpposite (offset : Nat) (after : List Token) :
    Spelled (.expression lowest (sampleOpposite offset))
      (⟨.minus, "-", offset⟩ :: ⟨.identifier, "y", offset + 1⟩ :: after) after := by
  have tight : operandStrength ≤ calleeStrength := by decide
  exact .lowest (.prefixed (.inr rfl) (.ungrouped tight (.identifier rfl)))

theorem every_sampleOpposite (offset : Nat) : (sampleOpposite offset).Every Expr.IsSimple :=
  .prefixed trivial (.identifier trivial)

/-- A name bound to a selection, and the opposite of its value, which begins with a given token. -/
def sampleSelection (mark : Token) : Program :=
  ⟨[.binding ⟨.letWord, "let", 0⟩ ⟨.identifier, "y", 4⟩
      (.index ⟨.openBracket, "[", 9⟩ (.identifier ⟨.identifier, "a", 8⟩)
        (.integer ⟨.integer, "0", 10⟩ (Decimal.value "0"))),
    .expression mark (sampleOpposite 14)]⟩

theorem readsPlainly_sampleSelection {text : String} {mark : Token} {rest : List Token}
    (scanned : Token.scan text =
      [⟨.letWord, "let", 0⟩, ⟨.identifier, "y", 4⟩, ⟨.assign, "=", 6⟩, ⟨.identifier, "a", 8⟩,
        ⟨.openBracket, "[", 9⟩, ⟨.integer, "0", 10⟩, ⟨.closeBracket, "]", 11⟩,
        ⟨.semicolon, ";", 12⟩] ++ mark :: rest)
    (spelled : Spelled (.expression lowest (sampleOpposite 14)) (mark :: rest) []) :
    ReadsPlainly text (sampleSelection mark) where
  clean := by
    have selection (after : List Token) : Spelled
        (.expression lowest (.index ⟨.openBracket, "[", 9⟩ (.identifier ⟨.identifier, "a", 8⟩)
          (.integer ⟨.integer, "0", 10⟩ (Decimal.value "0"))))
        (⟨.identifier, "a", 8⟩ :: ⟨.openBracket, "[", 9⟩ :: ⟨.integer, "0", 10⟩ ::
          ⟨.closeBracket, "]", 11⟩ :: after) after :=
      .lowest (.index rfl (.ungrouped (by decide) (.identifier rfl))
        (.lowest (.integer rfl (by decide +kernel) (by decide +kernel))) rfl)
    refine ⟨0, parseText_of_spelled ?_⟩
    rw [scanned]
    exact .statements (.binding rfl rfl rfl (selection _) (.semicolon rfl))
      (.statements (.standing spelled (.omitted (by decide))) .noStatements)
  simple := by
    refine List.forall_mem_cons.mpr ⟨.binding ?_, List.forall_mem_singleton.mpr (.expression ?_)⟩
    · exact .index trivial (.identifier trivial) (.integer trivial)
    · exact every_sampleOpposite 14
  concluded := List.forall_mem_singleton.mpr trivial

/-- Two texts with one rendering, in one of which a parenthesis begins the last statement. -/
theorem rendering_reads_back_sample :
    let first := sampleSelection ⟨.minus, "-", 14⟩
    let second := sampleSelection ⟨.openParen, "(", 13⟩
    ReadsPlainly "let y = a[0]; -y" first ∧ ReadsPlainly "let y = a[0];(-y)" second ∧
      first.render = "let y = (a[0]);(-y)" ∧ first.render = second.render ∧
      first.remarked.relocate (fun _ => 0) = second.remarked.relocate (fun _ => 0) ∧
      ∃ copy, parseText "let y = (a[0]);(-y)" = .ok ⟨copy, [], 0⟩ ∧
        copy.relocate (fun _ => 0) = first.remarked.relocate fun _ => 0 := by
  intro first second
  have plainly : ReadsPlainly "let y = a[0]; -y" first :=
    readsPlainly_sampleSelection (by decide +kernel) (spelled_sampleOpposite 14 [])
  have second_plainly : ReadsPlainly "let y = a[0];(-y)" second :=
    readsPlainly_sampleSelection (by decide +kernel)
      (.grouped rfl (spelled_sampleOpposite 14 [⟨.closeParen, ")", 16⟩]) rfl)
  have render_eq : first.render = "let y = (a[0]);(-y)" := by decide +kernel
  obtain ⟨copy, parse_eq, same, -⟩ := rendering_reads_back.1 _ _ plainly
  rw [render_eq] at parse_eq
  exact ⟨plainly, second_plainly, render_eq, rfl,
    rendering_reads_back.2 _ _ _ _ plainly second_plainly rfl, copy, parse_eq, same⟩

theorem parseText_sampleOpposite {text : String} {mark : Token} {rest : List Token} {offset : Nat}
    (scanned : Token.scan text = mark :: rest)
    (spelled : Spelled (.expression lowest (sampleOpposite offset)) (mark :: rest) []) :
    parseText text = .ok ⟨⟨[.expression mark (sampleOpposite offset)]⟩, [], 0⟩ := by
  refine parseText_of_spelled ?_
  rw [scanned]
  exact .statements (.standing spelled (.omitted (by decide))) .noStatements

theorem readsPlainly_sampleOpposite {text : String} {mark : Token} {offset : Nat}
    (parse_eq : parseText text = .ok ⟨⟨[.expression mark (sampleOpposite offset)]⟩, [], 0⟩) :
    ReadsPlainly text ⟨[.expression mark (sampleOpposite offset)]⟩ where
  clean := ⟨0, parse_eq⟩
  simple := List.forall_mem_singleton.mpr (.expression (every_sampleOpposite offset))
  concluded := List.forall_mem_nil _

/-- The token that is kept for an expression that stands for itself is not always the same: it is a
minus sign in `-y`, and a parenthesis in the rendering of that. -/
theorem mark_differs_in_rendering :
    let program : Program := ⟨[.expression ⟨.minus, "-", 0⟩ (sampleOpposite 0)]⟩
    let copy : Program := ⟨[.expression ⟨.openParen, "(", 0⟩ (sampleOpposite 1)]⟩
    ReadsPlainly "-y" program ∧ program.render = "(-y)" ∧
      parseText "(-y)" = .ok ⟨copy, [], 0⟩ ∧ ReadsPlainly "(-y)" copy ∧ copy.render = "(-y)" ∧
      copy.relocate (fun _ => 0) ≠ program.relocate fun _ => 0 := by
  intro program copy
  have parse_eq : parseText "-y" = .ok ⟨program, [], 0⟩ :=
    parseText_sampleOpposite (by decide +kernel) (spelled_sampleOpposite 0 [])
  have copy_parse_eq : parseText "(-y)" = .ok ⟨copy, [], 0⟩ :=
    parseText_sampleOpposite (by decide +kernel)
      (.grouped rfl (spelled_sampleOpposite 1 [⟨.closeParen, ")", 3⟩]) rfl)
  refine ⟨readsPlainly_sampleOpposite parse_eq, by decide +kernel, copy_parse_eq,
    readsPlainly_sampleOpposite copy_parse_eq, by decide +kernel, fun same => ?_⟩
  have marks_eq : Statement.expression ⟨.openParen, "(", 0⟩ _ = .expression ⟨.minus, "-", 0⟩ _ :=
    (List.cons.inj (congrArg Program.statements same)).1
  cases marks_eq

end Grammar
end MarmosetLang
