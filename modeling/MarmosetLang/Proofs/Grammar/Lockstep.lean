import MarmosetLang.Grammar.Program
import MarmosetLang.Proofs.Tree.Relocation

/-!
# Rules side by side

Two rules are followed side by side on two streams.  The second one reads the same constructs, with
their tokens perhaps at other places.  What the two answers have in common may be anything that
steps have and that composition and repetition keep: all rules of the grammar have it then, and what
has to be shown for it is listed here once.
-/

namespace MarmosetLang
namespace Rule

/-- What two streams and the answers on them may have in common, given what a construct of the first
side is on the second one. -/
abbrev Bond : Type 1 :=
  {α : Type} → (α → α) → Stream → Stream → Except Halt (Reply α) → Except Halt (Reply α) → Prop

/-- On any two streams the answers of two rules have something in common. -/
def Alongside {α : Type} (Holds : Bond) (change : α → α) (rule other : Rule α) : Prop :=
  ∀ stream copy, Holds change stream copy (rule stream) (other copy)

theorem map_id {α : Type} (answer : Except Halt (Reply α)) :
    answer.map (Reply.map id) = answer := by
  rcases answer with reason | ⟨_ | value, rest, issues, dropped⟩ <;> rfl

/-- A condition on streams that depends only on the kinds of the two tokens in sight. -/
def ByKinds (more : Stream → Bool) : Prop :=
  ∀ stream copy : Stream, copy.current.kind = stream.current.kind →
    copy.peek.kind = stream.peek.kind → more copy = more stream

/-- A bond that steps have and that composition and repetition keep. -/
structure Lockstep (move : Nat → Nat) (Holds : Bond) : Prop where
  pure : ∀ {α : Type} {change : α → α} {value copy : α}, copy = change value →
    Alongside Holds change (pure value) (pure copy)
  halt : ∀ {α : Type} {change : α → α} (reason : Halt),
    Alongside Holds change (halt reason) (halt reason)
  current : Alongside Holds (Token.relocate move) current current
  peek : Alongside Holds (Token.relocate move) peek peek
  advance : Alongside Holds id advance advance
  complain : ∀ {α : Type} {change : α → α} (fault : Fault) (token : Token),
    Alongside Holds change (complain fault token) (complain fault (token.relocate move))
  bind : ∀ {α β : Type} {change : α → α} {then_change : β → β} {rule other : Rule α}
    {next then_next : α → Rule β}, Alongside Holds change rule other →
    (∀ value, Alongside Holds then_change (next value) (then_next (change value))) →
      Alongside Holds then_change (rule >>= next) (other >>= then_next)
  passing : ∀ {α : Type} {change : α → α} {rule other : Rule α} (kind : Kind),
    Alongside Holds change rule other →
      Alongside Holds change (passing kind rule) (passing kind other)
  attempt : ∀ {α : Type} {change : α → α} {rule other : Rule α},
    Alongside Holds change rule other →
      Alongside Holds (Option.map change) (attempt rule) (attempt other)
  many : ∀ {α : Type} {change : α → α} {rule other : Rule α} {more : Stream → Bool},
    ByKinds more → Alongside Holds change rule other →
      Alongside Holds (List.map change) (many more rule) (many more other)
  foldWhile : ∀ {α : Type} {change : α → α} {rule other : α → Rule α} {more : Stream → Bool},
    ByKinds more → (∀ value, Alongside Holds change (rule value) (other (change value))) →
      ∀ value, Alongside Holds change (foldWhile more rule value)
        (foldWhile more other (change value))

/-! ## On the same stream

Where both rules are followed on one stream, only their answers have to be compared. -/

/-- What two answers may have in common, given what a construct of the first is in the second. -/
abbrev Tie : Type 1 :=
  {α : Type} → (α → α) → Except Halt (Reply α) → Except Halt (Reply α) → Prop

/-- The bond of two rules whose answers on each stream have something in common. -/
def OnSame (Holds : Tie) : Bond :=
  fun change stream copy answer other => copy = stream → Holds change answer other

/-- A tie that the same answer on both sides has, and that composition keeps. -/
structure Parallel (Holds : Tie) : Prop where
  error : ∀ {α : Type} {change : α → α} (reason : Halt),
    Holds change (.error reason) (.error reason)
  ok : ∀ {α : Type} {change : α → α} (reply : Reply α),
    Holds change (.ok reply) (.ok (reply.map change))
  cons : ∀ {α : Type} {change : α → α} {answer other : Except Halt (Reply (List α))} (first : α),
    Holds (List.map change) answer other →
      Holds (List.map change) (answer.map (Reply.map (first :: ·)))
        (other.map (Reply.map (change first :: ·)))
  bind : ∀ {α β : Type} {change : α → α} {then_change : β → β} {rule other : Rule α}
    {next then_next : α → Rule β} {stream : Stream}, Holds change (rule stream) (other stream) →
    (∀ value rest, Holds then_change (next value rest) (then_next (change value) rest)) →
      Holds then_change (Rule.bind rule next stream) (Rule.bind other then_next stream)
  passing : ∀ {α : Type} {change : α → α} {rule other : Rule α} {stream : Stream} (kind : Kind),
    Holds change (rule stream) (other stream) →
      Holds change (passing kind rule stream) (passing kind other stream)
  attempt : ∀ {α : Type} {change : α → α} {rule other : Rule α} {stream : Stream},
    Holds change (rule stream) (other stream) →
      Holds (Option.map change) (attempt rule stream) (attempt other stream)

namespace Parallel

variable {Holds : Tie} (keeps : Parallel Holds) {α : Type} {change : α → α} {more : Stream → Bool}
include keeps

theorem many {rule other : Rule α} (alongside : ∀ stream, Holds change (rule stream) (other stream))
    (stream : Stream) :
    Holds (List.map change) (many more rule stream) (many more other stream) := by
  induction stream using many.induct more with
  | case1 stream go ih =>
      rw [Rule.many, Rule.many, if_pos go, if_pos go]
      refine keeps.bind (alongside stream) fun first rest => ?_
      split
      · rename_i shorter
        exact keeps.cons first (ih rest shorter)
      · exact keeps.error .stuck
  | case2 stream stop =>
      rw [Rule.many, Rule.many, if_neg stop, if_neg stop]
      exact keeps.ok _

theorem foldWhile {rule other : α → Rule α}
    (alongside : ∀ value stream, Holds change (rule value stream) (other (change value) stream))
    (value : α) (stream : Stream) :
    Holds change (foldWhile more rule value stream)
      (foldWhile more other (change value) stream) := by
  induction value, stream using foldWhile.induct more with
  | case1 value stream go ih =>
      rw [Rule.foldWhile, Rule.foldWhile, if_pos go, if_pos go]
      refine keeps.bind (alongside value stream) fun next rest => ?_
      split
      · rename_i shorter
        exact ih next rest shorter
      · exact keeps.error .stuck
  | case2 value stream stop =>
      rw [Rule.foldWhile, Rule.foldWhile, if_neg stop, if_neg stop]
      exact keeps.ok _

/-- On the same stream, all rules of the grammar have what composition keeps. -/
theorem lockstep : Lockstep id (OnSame Holds) where
  pure := by
    rintro α change value _ rfl stream _ rfl
    exact keeps.ok ⟨some value, _, [], 0⟩
  halt := by
    rintro α change reason stream _ rfl
    exact keeps.error reason
  current := by
    rintro stream _ rfl
    exact keeps.ok _
  peek := by
    rintro stream _ rfl
    exact keeps.ok _
  advance := by
    rintro stream _ rfl
    exact keeps.ok _
  complain := by
    rintro α change fault token stream _ rfl
    exact keeps.ok ⟨none, _, [⟨fault, token⟩], 0⟩
  bind := by
    rintro α β change then_change rule other next then_next first second stream _ rfl
    exact keeps.bind (first _ _ rfl) fun value rest => second value rest rest rfl
  passing := by
    rintro α change rule other kind alongside stream _ rfl
    exact keeps.passing kind (alongside _ _ rfl)
  attempt := by
    rintro α change rule other alongside stream _ rfl
    exact keeps.attempt (alongside _ _ rfl)
  many := by
    rintro α change rule other more - alongside stream _ rfl
    exact keeps.many (fun stream => alongside stream stream rfl) _
  foldWhile := by
    rintro α change rule other more - alongside value stream _ rfl
    exact keeps.foldWhile (fun value stream => alongside value stream stream rfl) value _

end Parallel
end Rule

namespace Grammar

theorem byKinds_unclosed (closing : Kind → Bool) : Rule.ByKinds (unclosed closing) := by
  intro stream copy current_eq _
  rw [unclosed, unclosed, current_eq]

theorem byKinds_followedBy (kind : Kind) : Rule.ByKinds (followedBy kind) := by
  intro stream copy _ peek_eq
  rw [followedBy, followedBy, peek_eq]

theorem byKinds_notFollowedBy (kind : Kind) : Rule.ByKinds (notFollowedBy kind) := by
  intro stream copy _ peek_eq
  rw [notFollowedBy, notFollowedBy, followedBy, followedBy, peek_eq]

theorem byKinds_continues (precedence : Nat) : Rule.ByKinds (continues precedence) := by
  intro stream copy _ peek_eq
  rw [continues, continues, peek_eq]

end Grammar

namespace Rule.Lockstep

open Grammar

variable {move : Nat → Nat} {Holds : Bond} (steps : Lockstep move Holds)

theorem alongside_ite {α : Type} {change : α → α} {condition : Prop} [Decidable condition]
    {rule other first second : Rule α} (holds : Alongside Holds change rule first)
    (otherwise : Alongside Holds change other second) :
    Alongside Holds change (if condition then rule else other)
      (if condition then first else second) := by
  split
  · exact holds
  · exact otherwise

include steps

theorem expect (kind : Kind) :
    Alongside Holds (Token.relocate move) (Rule.expect kind) (Rule.expect kind) :=
  steps.bind steps.peek fun _ =>
    alongside_ite (steps.bind steps.advance fun _ => steps.pure rfl) (steps.complain _ _)

theorem integer : Alongside Holds (Expr.relocate move) Grammar.integer Grammar.integer :=
  steps.bind steps.current fun _ =>
    alongside_ite (steps.halt _) (alongside_ite (steps.complain _ _) (steps.pure rfl))

theorem parameters :
    Alongside Holds (List.map (Token.relocate move)) Grammar.parameters Grammar.parameters :=
  steps.bind steps.peek fun _ =>
    alongside_ite (steps.bind steps.advance fun _ => steps.pure rfl)
      (steps.bind (steps.expect _) fun _ =>
        steps.bind
          (steps.many (byKinds_followedBy _) (steps.bind steps.advance fun _ => steps.expect _))
          fun _ => steps.bind (steps.expect _) fun _ => steps.pure rfl)

variable {nested other : Nat → Rule Expr}
  (inside : ∀ precedence,
    Alongside Holds (Expr.relocate move) (nested precedence) (other precedence))
include inside

theorem binding :
    Alongside Holds (Statement.relocate move) (Grammar.binding nested) (Grammar.binding other) :=
  steps.bind steps.current fun _ =>
    steps.bind (steps.expect _) fun _ =>
      steps.bind (steps.expect _) fun _ =>
        steps.bind steps.advance fun _ =>
          steps.bind (steps.passing _ (inside _)) fun _ => steps.pure rfl

theorem returning :
    Alongside Holds (Statement.relocate move) (Grammar.returning nested)
      (Grammar.returning other) :=
  steps.bind steps.current fun _ =>
    steps.bind steps.advance fun _ =>
      steps.bind (steps.passing _ (inside _)) fun _ => steps.pure rfl

theorem standing :
    Alongside Holds (Statement.relocate move) (Grammar.standing nested) (Grammar.standing other) :=
  steps.bind steps.current fun _ =>
    steps.bind (steps.passing _ (inside _)) fun _ => steps.pure rfl

theorem statement :
    Alongside Holds (Statement.relocate move) (Grammar.statement nested)
      (Grammar.statement other) := by
  refine steps.bind steps.current fun token => ?_
  rw [Token.kind_relocate]
  split
  · exact steps.binding inside
  · exact steps.returning inside
  · exact steps.standing inside

theorem statements (closing : Kind → Bool) :
    Alongside Holds (Statement.relocateAll move) (Grammar.statements nested closing)
      (Grammar.statements other closing) := by
  refine steps.bind
    (steps.many (byKinds_unclosed closing)
      (steps.bind (steps.attempt (steps.statement inside)) fun _ =>
        steps.bind steps.advance fun _ => steps.pure rfl))
    fun found => steps.pure ?_
  rw [Statement.relocateAll_eq_map, List.filterMap_map, List.map_filterMap]
  rfl

theorem block :
    Alongside Holds (Block.relocate move) (Grammar.block nested) (Grammar.block other) :=
  steps.bind steps.current fun _ =>
    steps.bind steps.advance fun _ =>
      steps.bind (steps.statements inside _) fun _ => steps.pure rfl

theorem prefixed :
    Alongside Holds (Expr.relocate move) (Grammar.prefixed nested) (Grammar.prefixed other) :=
  steps.bind steps.current fun _ =>
    steps.bind steps.advance fun _ =>
      steps.bind (inside _) fun _ => steps.pure rfl

theorem grouped :
    Alongside Holds (Expr.relocate move) (Grammar.grouped nested) (Grammar.grouped other) :=
  steps.bind steps.advance fun _ =>
    steps.bind (inside _) fun _ =>
      steps.bind (steps.expect _) fun _ => steps.pure rfl

theorem conditional :
    Alongside Holds (Expr.relocate move) (Grammar.conditional nested)
      (Grammar.conditional other) := by
  refine steps.bind steps.current fun token => steps.bind (steps.expect _) fun _ =>
    steps.bind steps.advance fun _ => steps.bind (inside _) fun condition =>
      steps.bind (steps.expect _) fun _ => steps.bind (steps.expect _) fun _ =>
        steps.bind (steps.block inside) fun consequence => steps.bind steps.peek fun after => ?_
  exact alongside_ite
    (steps.bind steps.advance fun _ => steps.bind (steps.expect _) fun _ =>
      steps.bind (steps.block inside) fun _ => steps.pure rfl)
    (steps.pure rfl)

theorem function :
    Alongside Holds (Expr.relocate move) (Grammar.function nested) (Grammar.function other) :=
  steps.bind steps.current fun _ =>
    steps.bind (steps.expect _) fun _ =>
      steps.bind steps.parameters fun _ =>
        steps.bind (steps.expect _) fun _ =>
          steps.bind (steps.block inside) fun _ => steps.pure rfl

theorem items (closing : Kind) :
    Alongside Holds (Expr.relocateEach move) (Grammar.items nested closing)
      (Grammar.items other closing) := by
  refine steps.bind steps.peek fun after =>
    alongside_ite (steps.bind steps.advance fun _ => steps.pure rfl) ?_
  refine steps.bind steps.advance fun _ => steps.bind (inside _) fun first => ?_
  refine steps.bind
    (steps.many (byKinds_followedBy _)
      (steps.bind steps.advance fun _ => steps.bind steps.advance fun _ => inside _))
    fun others => steps.bind (steps.expect _) fun _ => steps.pure ?_
  rw [Expr.relocateEach_eq_map, List.map_cons]

theorem array :
    Alongside Holds (Expr.relocate move) (Grammar.array nested) (Grammar.array other) :=
  steps.bind steps.current fun _ =>
    steps.bind (steps.items inside _) fun _ => steps.pure rfl

theorem pair :
    Alongside Holds (Prod.map (Expr.relocate move) (Expr.relocate move)) (Grammar.pair nested)
      (Grammar.pair other) := by
  refine steps.bind steps.advance fun _ => steps.bind (inside _) fun key =>
    steps.bind (steps.expect _) fun _ => steps.bind steps.advance fun _ =>
      steps.bind (inside _) fun value => steps.bind steps.peek fun after => ?_
  exact alongside_ite (steps.pure rfl) (steps.bind (steps.expect _) fun _ => steps.pure rfl)

theorem hash :
    Alongside Holds (Expr.relocate move) (Grammar.hash nested) (Grammar.hash other) := by
  refine steps.bind steps.current fun token =>
    steps.bind (steps.many (byKinds_notFollowedBy _) (steps.pair inside)) fun pairs =>
      steps.bind steps.advance fun _ => steps.pure ?_
  rw [Expr.relocate, Expr.relocatePairs_eq_map]
  rfl

theorem operand :
    Alongside Holds (Expr.relocate move) (Grammar.operand nested) (Grammar.operand other) := by
  refine steps.bind steps.current fun token => ?_
  rw [Token.kind_relocate]
  split
  · exact steps.pure rfl
  · exact steps.integer
  · exact steps.pure rfl
  · exact steps.pure rfl
  · exact steps.pure rfl
  · exact steps.prefixed inside
  · exact steps.prefixed inside
  · exact steps.grouped inside
  · exact steps.conditional inside
  · exact steps.function inside
  · exact steps.array inside
  · exact steps.hash inside
  · exact steps.complain _ _

theorem infixed (left : Expr) :
    Alongside Holds (Expr.relocate move) (Grammar.infixed nested left)
      (Grammar.infixed other (left.relocate move)) :=
  steps.bind steps.current fun _ =>
    steps.bind steps.advance fun _ =>
      steps.bind (inside _) fun _ => steps.pure rfl

theorem call (callee : Expr) :
    Alongside Holds (Expr.relocate move) (Grammar.call nested callee)
      (Grammar.call other (callee.relocate move)) :=
  steps.bind steps.current fun _ =>
    steps.bind (steps.items inside _) fun _ => steps.pure rfl

theorem selection (container : Expr) :
    Alongside Holds (Expr.relocate move) (Grammar.selection nested container)
      (Grammar.selection other (container.relocate move)) :=
  steps.bind steps.current fun _ =>
    steps.bind steps.advance fun _ =>
      steps.bind (inside _) fun _ =>
        steps.bind (steps.expect _) fun _ => steps.pure rfl

theorem extend (left : Expr) :
    Alongside Holds (Expr.relocate move) (Grammar.extend nested left)
      (Grammar.extend other (left.relocate move)) := by
  refine steps.bind steps.peek fun after => ?_
  rw [Token.kind_relocate]
  cases after.kind with
  | equal | notEqual | less | greater | plus | minus | asterisk | slash =>
      exact steps.bind steps.advance fun _ => steps.infixed inside left
  | openParen => exact steps.bind steps.advance fun _ => steps.call inside left
  | openBracket => exact steps.bind steps.advance fun _ => steps.selection inside left
  | _ => exact steps.halt _

theorem expressionOver (precedence : Nat) :
    Alongside Holds (Expr.relocate move) (Grammar.expressionOver nested precedence)
      (Grammar.expressionOver other precedence) :=
  steps.bind (steps.operand inside) fun left =>
    steps.foldWhile (byKinds_continues precedence) (fun left => steps.extend inside left) left

end Rule.Lockstep
end MarmosetLang
