import MarmosetLang.Grammar.Program

/-!
# Properties of all rules

Every rule of the grammar is put together from the same few steps.  A property of answers that the
steps have and that composition and repetition keep is therefore a property of every rule, and what
has to be shown for it is listed here once.
-/

namespace MarmosetLang
namespace Rule

/-- A property of streams and the answers given on them holds of every answer of a rule. -/
def Always {α : Type} (Holds : (α : Type) → Stream → Except Halt (Reply α) → Prop)
    (rule : Rule α) : Prop :=
  ∀ stream, Holds α stream (rule stream)

/-- A property of answers that composition keeps. -/
structure Sequential (Holds : (α : Type) → Stream → Except Halt (Reply α) → Prop) : Prop where
  done : ∀ {α : Type} {value : α} {stream : Stream},
    Holds α stream (.ok ⟨some value, stream, [], 0⟩)
  stopped : ∀ {α : Type} {reason : Halt} {stream : Stream}, Holds α stream (.error reason)
  map : ∀ {α β : Type} {change : α → β} {stream : Stream} {answer : Except Halt (Reply α)},
    Holds α stream answer → Holds β stream (answer.map (Reply.map change))
  bind : ∀ {α β : Type} {rule : Rule α} {next : α → Rule β} {stream : Stream},
    Holds α stream (rule stream) → (∀ value rest, Holds β rest (next value rest)) →
      Holds β stream (Rule.bind rule next stream)

namespace Sequential

variable {Holds : (α : Type) → Stream → Except Halt (Reply α) → Prop} (steps : Sequential Holds)
  {α : Type} (more : Stream → Bool)
include steps

/-- Repetition is composition over and over again. -/
theorem always_many {rule : Rule α} (always : Always Holds rule) :
    Always Holds (many more rule) := by
  intro stream
  induction stream using many.induct more with
  | case1 stream go ih =>
      rw [many, if_pos go]
      refine steps.bind (always stream) fun first rest => ?_
      split
      · rename_i shorter
        exact steps.map (ih rest shorter)
      · exact steps.stopped
  | case2 stream stop =>
      rw [many, if_neg stop]
      exact steps.done

theorem always_foldWhile {rule : α → Rule α} (always : ∀ value, Always Holds (rule value))
    (value : α) : Always Holds (foldWhile more rule value) := by
  intro stream
  induction value, stream using foldWhile.induct more with
  | case1 value stream go ih =>
      rw [foldWhile, if_pos go]
      refine steps.bind (always value stream) fun next rest => ?_
      split
      · rename_i shorter
        exact ih next rest shorter
      · exact steps.stopped
  | case2 value stream stop =>
      rw [foldWhile, if_neg stop]
      exact steps.done

end Sequential

/-- A property that steps have and that composition and repetition keep. -/
structure Compositional (Holds : (α : Type) → Stream → Except Halt (Reply α) → Prop) : Prop where
  pure : ∀ {α : Type} (value : α), Always Holds (pure value)
  halt : ∀ {α : Type} (reason : Halt), Always Holds (halt reason : Rule α)
  current : Always Holds current
  peek : Always Holds peek
  advance : Always Holds advance
  complain : ∀ {α : Type} (fault : Fault) (token : Token),
    Always Holds (complain fault token : Rule α)
  bind : ∀ {α β : Type} {rule : Rule α} {next : α → Rule β}, Always Holds rule →
    (∀ value, Always Holds (next value)) → Always Holds (rule >>= next)
  passing : ∀ {α : Type} {rule : Rule α} (kind : Kind), Always Holds rule →
    Always Holds (passing kind rule)
  attempt : ∀ {α : Type} {rule : Rule α}, Always Holds rule → Always Holds (attempt rule)
  many : ∀ {α : Type} {rule : Rule α} (more : Stream → Bool), Always Holds rule →
    Always Holds (many more rule)
  foldWhile : ∀ {α : Type} {rule : α → Rule α} (more : Stream → Bool),
    (∀ value, Always Holds (rule value)) → ∀ value, Always Holds (foldWhile more rule value)

namespace Compositional

open Grammar

variable {Holds : (α : Type) → Stream → Except Halt (Reply α) → Prop} (keeps : Compositional Holds)
  {nested : Nat → Rule Expr}

theorem always_ite {α : Type} {condition : Prop} [Decidable condition]
    {rule other : Rule α} (first : Always Holds rule) (second : Always Holds other) :
    Always Holds (if condition then rule else other) := by
  split
  · exact first
  · exact second

include keeps

theorem expect (kind : Kind) : Always Holds (Rule.expect kind) :=
  keeps.bind keeps.peek fun _ =>
    always_ite (keeps.bind keeps.advance fun _ => keeps.pure _) (keeps.complain _ _)

theorem integer : Always Holds Grammar.integer :=
  keeps.bind keeps.current fun _ =>
    always_ite (keeps.halt _) (always_ite (keeps.complain _ _) (keeps.pure _))

theorem parameters : Always Holds Grammar.parameters :=
  keeps.bind keeps.peek fun _ =>
    always_ite (keeps.bind keeps.advance fun _ => keeps.pure _)
      (keeps.bind (keeps.expect _) fun _ =>
        keeps.bind (keeps.many _ (keeps.bind keeps.advance fun _ => keeps.expect _)) fun _ =>
          keeps.bind (keeps.expect _) fun _ => keeps.pure _)

variable (inside : ∀ precedence, Always Holds (nested precedence))
include inside

theorem binding : Always Holds (Grammar.binding nested) :=
  keeps.bind keeps.current fun _ =>
    keeps.bind (keeps.expect _) fun _ =>
      keeps.bind (keeps.expect _) fun _ =>
        keeps.bind keeps.advance fun _ =>
          keeps.bind (keeps.passing _ (inside _)) fun _ => keeps.pure _

theorem returning : Always Holds (Grammar.returning nested) :=
  keeps.bind keeps.current fun _ =>
    keeps.bind keeps.advance fun _ =>
      keeps.bind (keeps.passing _ (inside _)) fun _ => keeps.pure _

theorem standing : Always Holds (Grammar.standing nested) :=
  keeps.bind keeps.current fun _ =>
    keeps.bind (keeps.passing _ (inside _)) fun _ => keeps.pure _

theorem statement : Always Holds (Grammar.statement nested) := by
  refine keeps.bind keeps.current fun token => ?_
  split
  · exact keeps.binding inside
  · exact keeps.returning inside
  · exact keeps.standing inside

theorem statements (closing : Kind → Bool) : Always Holds (Grammar.statements nested closing) :=
  keeps.bind
    (keeps.many _ (keeps.bind (keeps.attempt (keeps.statement inside)) fun _ =>
      keeps.bind keeps.advance fun _ => keeps.pure _))
    fun _ => keeps.pure _

theorem block : Always Holds (Grammar.block nested) :=
  keeps.bind keeps.current fun _ =>
    keeps.bind keeps.advance fun _ =>
      keeps.bind (keeps.statements inside _) fun _ => keeps.pure _

theorem prefixed : Always Holds (Grammar.prefixed nested) :=
  keeps.bind keeps.current fun _ =>
    keeps.bind keeps.advance fun _ =>
      keeps.bind (inside _) fun _ => keeps.pure _

theorem grouped : Always Holds (Grammar.grouped nested) :=
  keeps.bind keeps.advance fun _ =>
    keeps.bind (inside _) fun _ =>
      keeps.bind (keeps.expect _) fun _ => keeps.pure _

theorem conditional : Always Holds (Grammar.conditional nested) := by
  refine keeps.bind keeps.current fun token => keeps.bind (keeps.expect _) fun _ =>
    keeps.bind keeps.advance fun _ => keeps.bind (inside _) fun condition =>
      keeps.bind (keeps.expect _) fun _ => keeps.bind (keeps.expect _) fun _ =>
        keeps.bind (keeps.block inside) fun consequence => keeps.bind keeps.peek fun after => ?_
  exact always_ite
    (keeps.bind keeps.advance fun _ => keeps.bind (keeps.expect _) fun _ =>
      keeps.bind (keeps.block inside) fun _ => keeps.pure _)
    (keeps.pure _)

theorem function : Always Holds (Grammar.function nested) :=
  keeps.bind keeps.current fun _ =>
    keeps.bind (keeps.expect _) fun _ =>
      keeps.bind keeps.parameters fun _ =>
        keeps.bind (keeps.expect _) fun _ =>
          keeps.bind (keeps.block inside) fun _ => keeps.pure _

theorem items (closing : Kind) : Always Holds (Grammar.items nested closing) := by
  refine keeps.bind keeps.peek fun after =>
    always_ite (keeps.bind keeps.advance fun _ => keeps.pure _) ?_
  refine keeps.bind keeps.advance fun _ => keeps.bind (inside _) fun first => ?_
  exact keeps.bind
    (keeps.many _ (keeps.bind keeps.advance fun _ => keeps.bind keeps.advance fun _ => inside _))
    fun _ => keeps.bind (keeps.expect _) fun _ => keeps.pure _

theorem array : Always Holds (Grammar.array nested) :=
  keeps.bind keeps.current fun _ =>
    keeps.bind (keeps.items inside _) fun _ => keeps.pure _

theorem pair : Always Holds (Grammar.pair nested) := by
  refine keeps.bind keeps.advance fun _ => keeps.bind (inside _) fun key =>
    keeps.bind (keeps.expect _) fun _ => keeps.bind keeps.advance fun _ =>
      keeps.bind (inside _) fun value => keeps.bind keeps.peek fun after => ?_
  exact always_ite (keeps.pure _) (keeps.bind (keeps.expect _) fun _ => keeps.pure _)

theorem hash : Always Holds (Grammar.hash nested) :=
  keeps.bind keeps.current fun _ =>
    keeps.bind (keeps.many _ (keeps.pair inside)) fun _ =>
      keeps.bind keeps.advance fun _ => keeps.pure _

theorem operand : Always Holds (Grammar.operand nested) := by
  refine keeps.bind keeps.current fun token => ?_
  split
  · exact keeps.pure _
  · exact keeps.integer
  · exact keeps.pure _
  · exact keeps.pure _
  · exact keeps.pure _
  · exact keeps.prefixed inside
  · exact keeps.prefixed inside
  · exact keeps.grouped inside
  · exact keeps.conditional inside
  · exact keeps.function inside
  · exact keeps.array inside
  · exact keeps.hash inside
  · exact keeps.complain _ _

theorem infixed (left : Expr) : Always Holds (Grammar.infixed nested left) :=
  keeps.bind keeps.current fun _ =>
    keeps.bind keeps.advance fun _ =>
      keeps.bind (inside _) fun _ => keeps.pure _

theorem call (callee : Expr) : Always Holds (Grammar.call nested callee) :=
  keeps.bind keeps.current fun _ =>
    keeps.bind (keeps.items inside _) fun _ => keeps.pure _

theorem selection (container : Expr) : Always Holds (Grammar.selection nested container) :=
  keeps.bind keeps.current fun _ =>
    keeps.bind keeps.advance fun _ =>
      keeps.bind (inside _) fun _ =>
        keeps.bind (keeps.expect _) fun _ => keeps.pure _

theorem extend (left : Expr) : Always Holds (Grammar.extend nested left) := by
  refine keeps.bind keeps.peek fun after => ?_
  split
  · exact keeps.halt _
  · rename_i rule extension
    refine keeps.bind keeps.advance fun _ => ?_
    rcases extension?_eq_some extension with ⟨_, rfl⟩ | ⟨_, rfl⟩ | ⟨_, rfl⟩
    · exact keeps.infixed inside left
    · exact keeps.call inside left
    · exact keeps.selection inside left

theorem expressionOver (precedence : Nat) :
    Always Holds (Grammar.expressionOver nested precedence) :=
  keeps.bind (keeps.operand inside) fun left =>
    keeps.foldWhile _ (fun left => keeps.extend inside left) left

omit inside

theorem expressionBelow (bound precedence : Nat) :
    Always Holds (Grammar.expressionBelow bound precedence) := by
  induction bound using Nat.strongRecOn generalizing precedence with
  | ind bound ih =>
      intro stream
      unfold Grammar.expressionBelow
      split
      · rename_i few
        rw [expression_eq]
        exact keeps.expressionOver (ih _ few) precedence stream
      · exact keeps.halt .stuck stream

theorem expression (precedence : Nat) : Always Holds (Grammar.expression precedence) := by
  intro stream
  rw [expression_eq]
  exact keeps.expressionOver (keeps.expressionBelow _) precedence stream

theorem program : Always Holds Grammar.program :=
  keeps.bind (keeps.statements keeps.expression _) fun _ => keeps.pure _

end Compositional
end Rule
end MarmosetLang
