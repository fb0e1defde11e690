import MarmosetLang.Proofs.Grammar.Spelling
import MarmosetLang.Proofs.Token.Seam

/-!
# Braces and seams

Which phrases stay the same when more tokens come after the text.  Only two things depend on where
the text ends: a block may be left open there, and the last expression may stand without a
semicolon.  Neither happens in a text that ends with a semicolon and closes as many braces as it
opens, for a phrase closes no more braces than it opens, and one that ends with a semicolon inside a
block leaves a brace open.
-/

namespace MarmosetLang

/-! ## Braces -/

/-- How many braces more than before are open after a token of the given kind. -/
def Kind.weight : Kind → Int
  | .openBrace => 1
  | .closeBrace => -1
  | _ => 0

namespace Token

/-- How many braces more are opened than closed by some tokens. -/
def depth : List Token → Int
  | [] => 0
  | token :: rest => token.kind.weight + depth rest

@[simp]
theorem depth_nil : depth [] = 0 := rfl

@[simp]
theorem depth_cons (token : Token) (rest : List Token) :
    depth (token :: rest) = token.kind.weight + depth rest := rfl

theorem depth_eq_countP (tokens : List Token) :
    depth tokens = (tokens.countP (·.kind = .openBrace) : Int) -
      tokens.countP (·.kind = .closeBrace) := by
  induction tokens with
  | nil => rfl
  | cons token rest ih =>
      rw [depth_cons, ih, List.countP_cons, List.countP_cons]
      cases token.kind <;> simp [Kind.weight] <;> omega

theorem nextKind_append {tokens : List Token} (ne_nil : tokens ≠ []) (further : List Token) :
    nextKind (tokens ++ further) = nextKind tokens := by
  cases tokens with
  | nil => exact absurd rfl ne_nil
  | cons => rfl

end Token

open Token (depth Concluded)

variable {before after further : List Token}

/-- How many more braces a phrase opens than it closes, at the least.  The closing brace of a hash
literal belongs to its pairs, and the opening one does not. -/
def Phrase.level : Phrase → Int
  | .items closing _ | .otherItems closing _ => closing.weight
  | .pairs _ => -1
  | _ => 0

/-- Whether a phrase is no statement, so that a semicolon can only stand inside it. -/
def Phrase.Inner : Phrase → Prop
  | .items closing _ | .otherItems closing _ => closing ≠ .semicolon
  | .statement _ | .statements _ => False
  | _ => True

theorem OtherNames.depth_eq {names : List Token} (spelled : OtherNames names before after) :
    depth before = depth after := by
  induction spelled with
  | closer kind => simp [kind, Kind.weight]
  | cons separated named _ ih => simp [separated, named, Kind.weight, ih]

theorem Names.depth_eq {names : List Token} (spelled : Names names before after) :
    depth before = depth after := by
  cases spelled with
  | closer kind => simp [kind, Kind.weight]
  | cons named others => simp [named, Kind.weight, others.depth_eq]

theorem Terminated.depth_eq (terminated : Terminated before after) :
    depth before = depth after := by
  cases terminated with
  | semicolon kind => simp [kind, Kind.weight]
  | omitted => rfl

theorem OtherNames.suffix {names : List Token} (spelled : OtherNames names before after) :
    after <:+ before := by
  induction spelled with
  | closer kind => exact List.suffix_cons _ _
  | cons separated named _ ih =>
      exact ih.trans ((List.suffix_cons _ _).trans (List.suffix_cons _ _))

theorem Names.suffix {names : List Token} (spelled : Names names before after) :
    after <:+ before := by
  cases spelled with
  | closer kind => exact List.suffix_cons _ _
  | cons named others => exact others.suffix.trans (List.suffix_cons _ _)

theorem Terminated.suffix (terminated : Terminated before after) : after <:+ before := by
  cases terminated with
  | semicolon kind => exact List.suffix_cons _ _
  | omitted => exact List.suffix_refl _

theorem OtherNames.append {names : List Token} (spelled : OtherNames names before after)
    (further : List Token) : OtherNames names (before ++ further) (after ++ further) := by
  induction spelled with
  | closer kind => exact .closer kind
  | cons separated named _ ih => exact .cons separated named ih

theorem Names.append {names : List Token} (spelled : Names names before after)
    (further : List Token) : Names names (before ++ further) (after ++ further) := by
  cases spelled with
  | closer kind => exact .closer kind
  | cons named others => exact .cons named (others.append further)

theorem Terminated.ne_nil (terminated : Terminated before after) (ne_nil : after ≠ []) :
    before ≠ [] := by
  cases terminated with
  | semicolon kind => exact nofun
  | omitted => exact ne_nil

theorem Terminated.append (terminated : Terminated before after) (ne_nil : after ≠ [])
    (further : List Token) : Terminated (before ++ further) (after ++ further) := by
  cases terminated with
  | semicolon kind => exact .semicolon kind
  | omitted next => exact .omitted (Token.nextKind_append ne_nil further ▸ next)

theorem Kind.weight_of_mem_infixes {kind : Kind} (infixed : kind ∈ Kind.infixes) :
    kind.weight = 0 := by
  revert infixed
  cases kind <;> decide

namespace Spelled

/-- No phrase closes more braces than it opens. -/
theorem level_le {phrase : Phrase} (spelled : Spelled phrase before after) :
    phrase.level + depth after ≤ depth before := by
  induction spelled with
  | infixed kind _ _ left right =>
      have weight := Kind.weight_of_mem_infixes kind
      simp only [Phrase.level, Token.depth_cons] at *
      omega
  | boolean kind | prefixed kind =>
      rcases kind with kind | kind <;> simp_all [Phrase.level, Kind.weight]
  | function kind opened names _ body =>
      have names_eq := names.depth_eq
      simp only [Phrase.level, Token.depth_cons, kind, opened, Kind.weight] at *
      omega
  | binding kind named assigned _ terminated value =>
      have rest_eq := terminated.depth_eq
      simp only [Phrase.level, Token.depth_cons, kind, named, assigned, Kind.weight] at *
      omega
  | returning kind _ terminated value =>
      have rest_eq := terminated.depth_eq
      simp only [Phrase.level, Token.depth_cons, kind, Kind.weight] at *
      omega
  | standing _ terminated value =>
      have rest_eq := terminated.depth_eq
      simp only [Phrase.level] at *
      omega
  | _ => simp_all only [Phrase.level, Token.depth_cons, Token.depth_nil, Kind.weight] <;> omega

/-- What comes after a phrase is the last part of what is ahead of it. -/
theorem suffix {phrase : Phrase} (spelled : Spelled phrase before after) : after <:+ before := by
  induction spelled with
  | function _ _ names _ body =>
      have names_suffix := names.suffix
      grind [List.IsSuffix.trans, List.suffix_cons]
  | binding _ _ _ _ terminated value | returning _ _ terminated value
  | standing _ terminated value =>
      have rest_suffix := terminated.suffix
      grind [List.IsSuffix.trans, List.suffix_cons]
  | _ => grind [List.IsSuffix.trans, List.suffix_cons]

theorem ne_nil {phrase : Phrase} (spelled : Spelled phrase before after)
    (least : 0 < phrase.least) : before ≠ [] :=
  List.ne_nil_of_length_pos (Nat.lt_of_lt_of_le least (Nat.le_of_add_left_le spelled.length_after))

/-- A phrase that is no statement and ends the text with a semicolon leaves a brace open, since the
semicolon is that of a statement in a block that is not closed. -/
theorem level_lt {phrase : Phrase} (spelled : Spelled phrase before after) (inner : phrase.Inner)
    (ended : after = []) (concluded : Concluded before) : phrase.level < depth before := by
  induction spelled with
  | identifier kind | integer kind | string kind | noPairs kind =>
      subst ended
      exact absurd (kind.symm.trans concluded.kind_eq) nofun
  | boolean kind =>
      subst ended
      rcases kind with kind | kind <;> exact absurd (kind.symm.trans concluded.kind_eq) nofun
  | noItems closed | noOtherItems closed =>
      subst ended
      exact absurd (closed.symm.trans concluded.kind_eq) inner
  | index _ container position closed =>
      subst ended
      have last := (concluded.of_suffix container.suffix).tail.of_suffix position.suffix
      exact absurd (closed.symm.trans last.kind_eq) nofun
  | grouped _ inside closed | block _ inside closed =>
      subst ended
      have last := concluded.tail.of_suffix inside.suffix
      exact absurd (closed.symm.trans last.kind_eq) nofun
  | lastPair key _ value closed =>
      subst ended
      have last := (concluded.of_suffix key.suffix).tail.of_suffix value.suffix
      exact absurd (closed.symm.trans last.kind_eq) nofun
  | openBlock kind inside =>
      have inside_le := inside.level_le
      simp only [Phrase.level, Token.depth_cons, Token.depth_nil, kind, Kind.weight] at *
      omega
  | array kind _ inside_lt =>
      have closing_ne : Kind.closeBracket ≠ .semicolon := nofun
      have inside_lt := inside_lt closing_ne ended concluded.tail
      simp only [Phrase.level, Token.depth_cons, kind, Kind.weight] at *
      omega
  | hash kind _ inside_lt =>
      have inside_lt := inside_lt trivial ended concluded.tail
      simp only [Phrase.level, Token.depth_cons, kind, Kind.weight] at *
      omega
  | prefixed kind _ operand =>
      have operand_lt := operand trivial ended concluded.tail
      rcases kind with kind | kind <;> simpa [Phrase.level, kind, Kind.weight] using operand_lt
  | infixed kind left right _ right_lt =>
      have left_le := left.level_le
      have right_lt := right_lt trivial ended (concluded.of_suffix left.suffix).tail
      have weight := Kind.weight_of_mem_infixes kind
      simp only [Phrase.level, Token.depth_cons] at *
      omega
  | conditional kind opened condition closed _ _ consequence_lt =>
      have condition_le := condition.level_le
      have consequence_lt :=
        consequence_lt trivial ended (concluded.tail.tail.of_suffix condition.suffix).tail
      simp only [Phrase.level, Token.depth_cons, kind, opened, closed, Kind.weight] at *
      omega
  | alternative kind opened condition closed consequence otherwise _ _ _ alternative_lt =>
      have condition_le := condition.level_le
      have consequence_le := consequence.level_le
      have alternative_lt := alternative_lt trivial ended
        ((concluded.tail.tail.of_suffix condition.suffix).tail.of_suffix consequence.suffix).tail
      simp only [Phrase.level, Token.depth_cons, kind, opened, closed, otherwise,
        Kind.weight] at *
      omega
  | function kind opened names _ body_lt =>
      have names_eq := names.depth_eq
      have body_lt := body_lt trivial ended (concluded.tail.tail.of_suffix names.suffix)
      simp only [Phrase.level, Token.depth_cons, kind, opened, Kind.weight] at *
      omega
  | call kind callee _ _ arguments_lt =>
      have callee_le := callee.level_le
      have closing_ne : Kind.closeParen ≠ .semicolon := nofun
      have arguments_lt :=
        arguments_lt closing_ne ended (concluded.of_suffix callee.suffix).tail
      simp only [Phrase.level, Token.depth_cons, kind, Kind.weight] at *
      omega
  | ungrouped _ _ bare_lt => exact bare_lt trivial ended concluded
  | items first _ _ others_lt =>
      have first_le := first.level_le
      have others_lt := others_lt inner ended (concluded.of_suffix first.suffix)
      simp only [Phrase.level] at *
      omega
  | otherItems separated first _ _ others_lt =>
      have first_le := first.level_le
      have others_lt := others_lt inner ended (concluded.tail.of_suffix first.suffix)
      simp only [Phrase.level, Token.depth_cons, separated, Kind.weight] at *
      omega
  | pairs key separated value continued _ _ _ others_lt =>
      have key_le := key.level_le
      have value_le := value.level_le
      have others_lt := others_lt trivial ended
        ((concluded.of_suffix key.suffix).tail.of_suffix value.suffix).tail
      simp only [Phrase.level, Token.depth_cons, separated, continued, Kind.weight] at *
      omega
  | binding | returning | standing | noStatements | statements => exact inner.elim

/-- A phrase after which something comes stays the same when more comes after that. -/
theorem append {phrase : Phrase} (spelled : Spelled phrase before after) (ne_nil : after ≠ [])
    (further : List Token) : Spelled phrase (before ++ further) (after ++ further) := by
  induction spelled with
  | identifier kind => exact .identifier kind
  | integer kind short small => exact .integer kind short small
  | string kind => exact .string kind
  | boolean kind => exact .boolean kind
  | array kind _ inside => exact .array kind (inside ne_nil)
  | hash kind _ inside => exact .hash kind (inside ne_nil)
  | prefixed kind _ operand => exact .prefixed kind (operand ne_nil)
  | infixed kind _ _ left right => exact .infixed kind (left nofun) (right ne_nil)
  | conditional kind opened _ closed _ condition consequence =>
      exact .conditional kind opened (condition nofun) closed (consequence ne_nil)
  | alternative kind opened _ closed _ otherwise _ condition consequence alternative =>
      exact .alternative kind opened (condition nofun) closed (consequence nofun) otherwise
        (alternative ne_nil)
  | function kind opened names _ body =>
      exact .function kind opened (names.append further) (body ne_nil)
  | call kind _ _ callee arguments => exact .call kind (callee nofun) (arguments ne_nil)
  | index kind _ _ closed container position =>
      exact .index kind (container nofun) (position nofun) closed
  | ungrouped tight _ bare => exact .ungrouped tight (bare ne_nil)
  | grouped opened _ closed inside => exact .grouped opened (inside nofun) closed
  | noItems closed => exact .noItems closed
  | items _ others_spelled first others =>
      exact .items (first (others_spelled.ne_nil Nat.one_pos)) (others ne_nil)
  | noOtherItems closed => exact .noOtherItems closed
  | otherItems separated _ others_spelled first others =>
      exact .otherItems separated (first (others_spelled.ne_nil Nat.one_pos)) (others ne_nil)
  | noPairs closed => exact .noPairs closed
  | lastPair _ separated _ closed key value =>
      exact .lastPair (key nofun) separated (value nofun) closed
  | pairs _ separated _ continued _ key value others =>
      exact .pairs (key nofun) separated (value nofun) continued (others ne_nil)
  | block kind _ closed inside => exact .block kind (inside nofun) closed
  | openBlock => exact absurd rfl ne_nil
  | binding kind named assigned _ terminated value =>
      exact .binding kind named assigned (value (terminated.ne_nil ne_nil))
        (terminated.append ne_nil further)
  | returning kind _ terminated value =>
      exact .returning kind (value (terminated.ne_nil ne_nil)) (terminated.append ne_nil further)
  | standing _ terminated value =>
      exact .standing (value (terminated.ne_nil ne_nil)) (terminated.append ne_nil further)
  | noStatements => exact .noStatements
  | statements _ others_spelled first others =>
      refine .statements (first ?_) (others ne_nil)
      exact fun middle_eq => ne_nil (List.suffix_nil.mp (middle_eq ▸ others_spelled.suffix))

end Spelled
end MarmosetLang
