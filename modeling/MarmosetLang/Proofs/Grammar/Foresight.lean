import MarmosetLang.Proofs.Grammar.Answering
import MarmosetLang.Proofs.Grammar.Lockstep
import Mathlib.Data.List.GetD

/-!
# Foresight

A rule decides with what it has read: the tokens that it passes and the two in sight where it ends.
Two streams that agree so far get the same answer from it, whatever comes after that on either of
them.  The two runs are followed side by side.  That the second one is not stopped by a guard is
left open on the way, for no rule of the grammar ever is.
-/

namespace MarmosetLang

namespace Stream

/-- The stream with some tokens passed. -/
def skip (count : Nat) (stream : Stream) : Stream :=
  { stream with
    tokens := stream.tokens.drop count
    kind_ne_eof := fun token member => stream.kind_ne_eof token (List.mem_of_mem_drop member) }

/-- The first tokens of a copy, so many of them, are those of the stream. -/
def Agrees (stream copy : Stream) (count : Nat) : Prop :=
  ∀ distance < count, copy.get distance = stream.get distance

variable {stream copy : Stream} {count more : Nat}

theorem skip_one (stream : Stream) : stream.skip 1 = stream.advance := by
  simp only [skip, advance, List.drop_one]

theorem skip_skip (count more : Nat) (stream : Stream) :
    (stream.skip count).skip more = stream.skip (count + more) := by
  simp only [skip, List.drop_drop]

theorem advance_skip (count : Nat) (stream : Stream) :
    (stream.skip count).advance = stream.skip (count + 1) := by
  rw [← skip_one, skip_skip]

theorem length_skip (count : Nat) (stream : Stream) :
    (stream.skip count).length = stream.length - count :=
  List.length_drop

/-- Beyond the end there is nothing to pass. -/
theorem skip_of_length_le (beyond : stream.length ≤ count) :
    stream.skip count = stream.skip stream.length := by
  refine Stream.ext ?_ rfl
  change stream.tokens.drop count = stream.tokens.drop stream.tokens.length
  rw [List.drop_of_length_le beyond, List.drop_length]

/-- What is left tells how many tokens have been passed. -/
theorem skip_sub_length_skip (count : Nat) (stream : Stream) :
    stream.skip (stream.length - (stream.skip count).length) = stream.skip count := by
  rw [length_skip]
  rcases Nat.le_total stream.length count with beyond | inside
  · rw [Nat.sub_eq_zero_of_le beyond, Nat.sub_zero, skip_of_length_le beyond]
  · rw [Nat.sub_sub_self inside]

theorem get_skip (count distance : Nat) (stream : Stream) :
    (stream.skip count).get distance = stream.get (count + distance) := by
  rw [get, get, skip, List.getD_eq_getElem?_getD, List.getD_eq_getElem?_getD, List.getElem?_drop]

/-- The tokens before the end are those of another kind than the end. -/
theorem kind_get_eq_eof_iff (stream : Stream) (distance : Nat) :
    (stream.get distance).kind = .eof ↔ stream.length ≤ distance := by
  rw [get, List.getD_eq_getElem?_getD]
  constructor
  · intro kind
    refine Nat.le_of_not_lt fun inside => ?_
    rw [List.getElem?_eq_getElem inside] at kind
    exact stream.kind_ne_eof _ (List.getElem_mem inside) kind
  · intro beyond
    rw [List.getElem?_eq_none beyond]
    exact stream.kind_ending

namespace Agrees

theorem mono (agrees : stream.Agrees copy more) (le : count ≤ more) : stream.Agrees copy count :=
  fun distance lt => agrees distance (Nat.lt_of_lt_of_le lt le)

theorem skip (agrees : stream.Agrees copy (count + more)) :
    (stream.skip count).Agrees (copy.skip count) more := by
  intro distance lt
  rw [get_skip, get_skip]
  exact agrees _ (Nat.add_lt_add_left lt count)

theorem current_eq (agrees : stream.Agrees copy 2) : copy.current = stream.current := by
  rw [← get_zero, ← get_zero]
  exact agrees 0 Nat.two_pos

theorem peek_eq (agrees : stream.Agrees copy 2) : copy.peek = stream.peek := by
  rw [← get_one, ← get_one]
  exact agrees 1 Nat.one_lt_two

/-- Streams that agree on the end and all that is before it are the same. -/
theorem eq (agrees : stream.Agrees copy count) (ended : stream.length < count) :
    copy = stream := by
  have length_eq : copy.length = stream.length := by
    have end_le : copy.length ≤ stream.length := by
      rw [← kind_get_eq_eof_iff, agrees _ ended]
      exact (kind_get_eq_eof_iff _ _).mpr (Nat.le_refl _)
    refine Nat.le_antisymm end_le (Nat.le_of_not_lt fun shorter => ?_)
    have same := agrees _ (Nat.lt_trans shorter ended)
    have early : (stream.get copy.length).kind = .eof :=
      same ▸ (kind_get_eq_eof_iff _ _).mpr (Nat.le_refl _)
    exact Nat.not_le_of_lt shorter ((kind_get_eq_eof_iff _ _).mp early)
  have ending_eq : copy.ending = stream.ending := by
    have same := agrees _ ended
    rwa [get, get, List.getD_eq_default copy.tokens _ (Nat.le_of_eq length_eq),
      List.getD_eq_default stream.tokens _ (Nat.le_refl stream.length)] at same
  refine Stream.ext (List.ext_getElem length_eq fun distance inside copied => ?_) ending_eq
  have same := agrees distance (Nat.lt_trans copied ended)
  rwa [get, get, List.getD_eq_getElem _ _ inside, List.getD_eq_getElem _ _ copied] at same

end Agrees
end Stream

/-- The reply with its construct changed and another stream left. -/
def Reply.carry {α : Type} (change : α → α) (reply : Reply α) (rest : Stream) : Reply α :=
  ⟨reply.result.map change, rest, reply.issues, reply.dropped⟩

namespace Rule

variable {α β : Type} {change : α → α} {then_change : β → β} {stream copy : Stream}
  {answer other : Except Halt (Reply α)}

/-- If there is an answer on a stream, some tokens have been passed.  Where a copy agrees on them
and on the two after them, the answer there is the same, unless a guard has stopped it, and as many
tokens have been passed. -/
def Foreseen : Bond :=
  fun change stream copy answer other =>
    ∀ reply, answer = .ok reply → ∃ passed, reply.rest = stream.skip passed ∧
      (stream.Agrees copy (passed + 2) →
        other = .error .stuck ∨ other = .ok (reply.carry change (copy.skip passed)))

theorem foreseen_error {reason : Halt} : Foreseen change stream copy (.error reason) other :=
  nofun

/-- An answer that passes so many tokens, whatever the stream is. -/
theorem foreseen_ok {reply : Reply α} (passed : Nat) (rest_eq : reply.rest = stream.skip passed)
    (same : stream.Agrees copy 2 → other = .ok (reply.carry change (copy.skip passed))) :
    Foreseen change stream copy (.ok reply) other := by
  rintro _ ⟨⟩
  exact ⟨passed, rest_eq, fun agrees => .inr (same (agrees.mono (Nat.le_add_left _ _)))⟩

namespace Foreseen

/-- A guard may always stop the second run. -/
theorem stuck (foreseen : Foreseen change stream copy answer other) :
    Foreseen change stream copy answer (.error .stuck) := by
  intro reply answer_eq
  obtain ⟨passed, rest_eq, -⟩ := foreseen reply answer_eq
  exact ⟨passed, rest_eq, fun _ => .inl rfl⟩

theorem congr {same : Except Halt (Reply α)} (foreseen : Foreseen change stream copy answer other)
    (eq : stream.Agrees copy 2 → same = other) : Foreseen change stream copy answer same := by
  intro reply answer_eq
  obtain ⟨passed, rest_eq, follows⟩ := foreseen reply answer_eq
  refine ⟨passed, rest_eq, fun agrees => ?_⟩
  rw [eq (agrees.mono (Nat.le_add_left _ _))]
  exact follows agrees

/-- What is done to all replies, and leaves the stream as it is, may be done on either side. -/
theorem map {turn turned : Reply α → Reply β} (foreseen : Foreseen change stream copy answer other)
    (keeps : ∀ reply, (turn reply).rest = reply.rest)
    (comm : ∀ reply rest, turned (reply.carry change rest) = (turn reply).carry then_change rest) :
    Foreseen then_change stream copy (answer.map turn) (other.map turned) := by
  intro reply answer_eq
  cases answer with
  | error reason => cases answer_eq
  | ok earlier =>
      obtain ⟨passed, rest_eq, follows⟩ := foreseen earlier rfl
      cases answer_eq
      refine ⟨passed, (keeps earlier).trans rest_eq, fun agrees => ?_⟩
      rcases follows agrees with rfl | rfl
      · exact .inl rfl
      · exact .inr (congrArg Except.ok (comm earlier _))

/-- The second rule starts where the first one ends, on either side. -/
theorem bind {rule rule_copy : Rule α} {next next_copy : α → Rule β}
    (first : Foreseen change stream copy (rule stream) (rule_copy copy))
    (second : ∀ value rest rest_copy,
      Foreseen then_change rest rest_copy (next value rest) (next_copy (change value) rest_copy)) :
    Foreseen then_change stream copy (Rule.bind rule next stream)
      (Rule.bind rule_copy next_copy copy) := by
  intro reply answer_eq
  rw [Rule.bind] at answer_eq
  rcases first_eq : rule stream with reason | ⟨_ | value, rest, issues, dropped⟩
  · rw [first_eq] at answer_eq
    cases answer_eq
  · obtain ⟨passed, rest_eq, follows⟩ := first _ first_eq
    rw [first_eq] at answer_eq
    cases answer_eq
    refine ⟨passed, rest_eq, fun agrees => ?_⟩
    rw [Rule.bind]
    rcases follows agrees with copy_eq | copy_eq
    · exact .inl (by rw [copy_eq])
    · exact .inr (by rw [copy_eq]; rfl)
  · obtain ⟨passed, rest_eq, follows⟩ := first _ first_eq
    rw [first_eq] at answer_eq
    dsimp only at answer_eq rest_eq
    rcases second_eq : next value rest with reason | later
    · rw [second_eq] at answer_eq
      cases answer_eq
    · obtain ⟨further, later_eq, then_follows⟩ :=
        second value rest (copy.skip passed) later second_eq
      rw [second_eq] at answer_eq
      cases answer_eq
      refine ⟨passed + further, ?_, fun agrees => ?_⟩
      · rw [← Stream.skip_skip, ← rest_eq]
        exact later_eq
      · have agrees_rest : rest.Agrees (copy.skip passed) (further + 2) := by
          rw [rest_eq]
          exact Stream.Agrees.skip (Nat.add_assoc _ _ _ ▸ agrees)
        rw [Rule.bind]
        rcases follows (agrees.mono (by omega)) with copy_eq | copy_eq
        · exact .inl (by rw [copy_eq])
        · rw [copy_eq]
          change (next_copy (change value) (copy.skip passed)).map _ = _ ∨
            (next_copy (change value) (copy.skip passed)).map _ = _
          rcases then_follows agrees_rest with later_copy_eq | later_copy_eq
          · exact .inl (by rw [later_copy_eq]; rfl)
          · refine .inr ?_
            rw [later_copy_eq, ← Stream.skip_skip]
            rfl

end Foreseen

/-! ## All rules -/

/-- A condition on the kinds in sight is the same where the streams agree on what is in sight. -/
theorem more_eq_of_agrees {more : Stream → Bool} (kinds : ByKinds more)
    (agrees : stream.Agrees copy 2) : more copy = more stream :=
  kinds _ _ (congrArg Token.kind agrees.current_eq) (congrArg Token.kind agrees.peek_eq)

theorem many_of_more {rule : Rule α} {more : Stream → Bool} (go : more stream = true) :
    many more rule stream =
      Rule.bind rule
        (fun first rest =>
          if rest.length < stream.length then
            (many more rule rest).map (Reply.map (first :: ·))
          else
            .error .stuck)
        stream := by
  rw [many, if_pos go]

theorem foldWhile_of_more {rule : α → Rule α} {more : Stream → Bool} {value : α}
    (go : more stream = true) :
    foldWhile more rule value stream =
      Rule.bind (rule value)
        (fun next rest =>
          if rest.length < stream.length then foldWhile more rule next rest else .error .stuck)
        stream := by
  rw [foldWhile, if_pos go]

/-- What comes after one round of a loop, with a guard on either side. -/
theorem Foreseen.ite {condition other_condition : Prop} [Decidable condition]
    [Decidable other_condition]
    (foreseen : condition → Foreseen change stream copy answer other) :
    Foreseen change stream copy (if condition then answer else .error .stuck)
      (if other_condition then other else .error .stuck) := by
  split
  · rename_i holds
    split
    · exact foreseen holds
    · exact (foreseen holds).stuck
  · exact foreseen_error

theorem foreseen_many {rule rule_copy : Rule α} {more : Stream → Bool} (kinds : ByKinds more)
    (alongside : Alongside Foreseen change rule rule_copy) :
    Alongside Foreseen (List.map change) (many more rule) (many more rule_copy) := by
  intro stream
  induction stream using many.induct more with
  | case1 stream go ih =>
      intro copy
      rw [many_of_more go]
      refine Foreseen.congr ?_ fun agrees =>
        many_of_more ((more_eq_of_agrees kinds agrees).trans go)
      refine (alongside stream copy).bind fun first rest rest_copy => .ite fun shorter => ?_
      refine (ih rest shorter rest_copy).map (fun _ => rfl) ?_
      rintro ⟨_ | others, _⟩ rest <;> rfl
  | case2 stream stop =>
      intro copy
      rw [many, if_neg stop]
      refine foreseen_ok 0 rfl fun agrees => ?_
      rw [many, more_eq_of_agrees kinds agrees, if_neg stop]
      rfl

theorem foreseen_foldWhile {rule rule_copy : α → Rule α} {more : Stream → Bool}
    (kinds : ByKinds more)
    (alongside : ∀ value, Alongside Foreseen change (rule value) (rule_copy (change value)))
    (value : α) :
    Alongside Foreseen change (foldWhile more rule value)
      (foldWhile more rule_copy (change value)) := by
  intro stream
  induction value, stream using foldWhile.induct more with
  | case1 value stream go ih =>
      intro copy
      rw [foldWhile_of_more go]
      refine Foreseen.congr ?_ fun agrees =>
        foldWhile_of_more ((more_eq_of_agrees kinds agrees).trans go)
      exact (alongside value stream copy).bind fun next rest rest_copy =>
        .ite fun shorter => ih next rest shorter rest_copy
  | case2 value stream stop =>
      intro copy
      rw [foldWhile, if_neg stop]
      refine foreseen_ok 0 rfl fun agrees => ?_
      rw [foldWhile, more_eq_of_agrees kinds agrees, if_neg stop]
      rfl

/-- Whether one more token is passed is foreseen, because that token has been in sight. -/
theorem foreseen_passing {rule rule_copy : Rule α} (kind : Kind)
    (alongside : Alongside Foreseen change rule rule_copy) :
    Alongside Foreseen change (passing kind rule) (passing kind rule_copy) := by
  intro stream copy reply answer_eq
  rw [passing] at answer_eq
  rcases rule_eq : rule stream with reason | ⟨result, rest, issues, dropped⟩
  · rw [rule_eq] at answer_eq
    cases answer_eq
  · obtain ⟨passed, rest_eq, follows⟩ := alongside stream copy _ rule_eq
    dsimp only at rest_eq
    subst rest_eq
    have copied (agrees : stream.Agrees copy (passed + 2)) :
        passing kind rule_copy copy = .error .stuck ∨
          passing kind rule_copy copy = .ok
            (if (stream.skip passed).peek.kind = kind then
              ⟨result.map change, copy.skip (passed + 1), issues, dropped⟩
            else
              ⟨result.map change, copy.skip passed, issues, dropped⟩) := by
      rw [passing]
      rcases follows agrees with copy_eq | copy_eq
      · exact .inl (by rw [copy_eq]; rfl)
      · rw [copy_eq, ← agrees.skip.peek_eq, ← copy.advance_skip]
        exact .inr rfl
    rw [rule_eq] at answer_eq
    cases answer_eq
    dsimp only
    split
    · rename_i same
      rw [if_pos same] at copied
      exact ⟨passed + 1, stream.advance_skip passed, fun agrees =>
        copied (agrees.mono (Nat.le_succ _))⟩
    · rename_i different
      rw [if_neg different] at copied
      exact ⟨passed, rfl, copied⟩

theorem lockstep_foreseen : Lockstep id Foreseen where
  pure := by
    rintro α change value _ rfl stream copy
    exact foreseen_ok 0 rfl fun _ => rfl
  halt _ _ _ := foreseen_error
  current := fun stream copy => foreseen_ok 0 rfl fun agrees => by
    rw [Rule.current, agrees.current_eq]
    rfl
  peek := fun stream copy => foreseen_ok 0 rfl fun agrees => by
    rw [Rule.peek, agrees.peek_eq]
    rfl
  advance := fun stream copy => foreseen_ok 1 stream.skip_one.symm fun _ => by
    rw [Rule.advance, Reply.carry, copy.skip_one]
    rfl
  complain _ _ _ _ := foreseen_ok 0 rfl fun _ => rfl
  bind first second stream copy :=
    (first stream copy).bind fun value rest rest_copy => second value rest rest_copy
  passing := foreseen_passing
  attempt alongside stream copy := by
    refine (alongside stream copy).map (fun reply => ?_) ?_
    · split <;> rfl
    · rintro ⟨_ | value, _⟩ rest <;> rfl
  many := foreseen_many
  foldWhile := foreseen_foldWhile

end Rule

namespace Grammar

open Rule

theorem foreseen_expressionBelow (bound other_bound precedence : Nat) :
    Alongside Foreseen (Expr.relocate id) (expressionBelow bound precedence)
      (expressionBelow other_bound precedence) := by
  induction bound using Nat.strongRecOn generalizing other_bound precedence with
  | ind bound ih =>
      intro stream copy
      refine Foreseen.ite fun few => ?_
      rw [expression_eq, expression_eq]
      exact lockstep_foreseen.expressionOver (fun tighter => ih _ few copy.length tighter)
        precedence stream copy

theorem foreseen_expression (precedence : Nat) :
    Alongside Foreseen (Expr.relocate id) (expression precedence) (expression precedence) := by
  intro stream copy
  rw [expression_eq, expression_eq]
  exact lockstep_foreseen.expressionOver
    (fun tighter => foreseen_expressionBelow stream.length copy.length tighter) precedence stream
    copy

/-- The rules by which constructs are read. -/
inductive Reader : {α : Type} → Rule α → Prop
  | statement : Reader (statement expression)
  | binding : Reader (binding expression)
  | returning : Reader (returning expression)
  | standing : Reader (standing expression)
  | block : Reader (block expression)
  | expression (precedence : Nat) (le : lowest ≤ precedence) : Reader (expression precedence)
  | operand : Reader (operand expression)
  | prefixed : Reader (prefixed expression)
  | grouped : Reader (grouped expression)
  | conditional : Reader (conditional expression)
  | function : Reader (function expression)
  | parameters : Reader parameters
  | items (closing : Kind) (ne_eof : closing ≠ .eof) : Reader (items expression closing)
  | array : Reader (array expression)
  | hash : Reader (hash expression)
  | infixed (left : Expr) : Reader (infixed expression left)
  | call (callee : Expr) : Reader (call expression callee)
  | selection (container : Expr) : Reader (selection expression container)

variable {α : Type} {rule : Rule α}

theorem Reader.foreseen (reader : Reader rule) : Alongside Foreseen id rule rule := by
  have steps := lockstep_foreseen
  have inside := foreseen_expression
  have exprs : Expr.relocate id = id := funext Expr.relocate_id
  have texts : Statement.relocate id = id := funext Statement.relocate_id
  have blocks : Block.relocate id = id := funext Block.relocate_id
  have rows : Expr.relocateEach id = id := funext Expr.relocateEach_id
  have names : List.map (Token.relocate id) = id := List.map_id_fun
  cases reader with
  | statement => exact texts ▸ steps.statement inside
  | binding => exact texts ▸ steps.binding inside
  | returning => exact texts ▸ steps.returning inside
  | standing => exact texts ▸ steps.standing inside
  | block => exact blocks ▸ steps.block inside
  | expression precedence _ => exact exprs ▸ inside precedence
  | operand => exact exprs ▸ steps.operand inside
  | prefixed => exact exprs ▸ steps.prefixed inside
  | grouped => exact exprs ▸ steps.grouped inside
  | conditional => exact exprs ▸ steps.conditional inside
  | function => exact exprs ▸ steps.function inside
  | parameters => exact names ▸ steps.parameters
  | items closing _ => exact rows ▸ steps.items inside closing
  | array => exact exprs ▸ steps.array inside
  | hash => exact exprs ▸ steps.hash inside
  | infixed left => simpa only [exprs, id] using steps.infixed inside left
  | call callee => simpa only [exprs, id] using steps.call inside callee
  | selection container => simpa only [exprs, id] using steps.selection inside container

theorem Reader.proceeds (reader : Reader rule) (stream : Stream) : rule.Proceeds stream := by
  have ready := ready_expression (stream.length + 1)
  have fits : Fits (stream.length + 1) stream := Nat.lt_succ_self _
  cases reader with
  | statement => exact proceeds_statement ready fits
  | binding => exact proceeds_binding ready fits
  | returning => exact proceeds_returning ready fits
  | standing => exact proceeds_standing ready fits
  | block => exact proceeds_block ready fits
  | expression precedence le => exact proceeds_expression le
  | operand => exact proceeds_operand ready fun _ => fits.advance
  | prefixed => exact proceeds_prefixed ready fits.advance
  | grouped => exact proceeds_grouped ready fits.advance
  | conditional => exact proceeds_conditional ready fits.advance
  | function => exact proceeds_function ready fits.advance
  | parameters => exact proceeds_parameters
  | items closing ne_eof => exact proceeds_items ready ne_eof fits.advance
  | array => exact proceeds_array ready fits.advance
  | hash => exact proceeds_hash ready fits.advance
  | infixed left => exact proceeds_infixed ready left fits.advance
  | call callee => exact proceeds_call ready callee fits.advance
  | selection container => exact proceeds_selection ready container fits.advance

/-- Where a copy agrees on the tokens that a rule has passed and on the two after them, the rule
gives the same answer there. -/
theorem Reader.eq_of_agrees (reader : Reader rule) {stream copy : Stream} {reply : Reply α}
    (answer : rule stream = .ok reply)
    (agrees : stream.Agrees copy (stream.length - reply.rest.length + 2)) :
    rule copy = .ok { reply with rest := copy.skip (stream.length - reply.rest.length) } := by
  obtain ⟨count, rest_eq, follows⟩ := reader.foreseen stream copy reply answer
  rcases Nat.lt_or_ge stream.length count with beyond | inside
  · -- All has been read, and a copy that agrees so far is the stream itself.
    have all_passed : stream.length - reply.rest.length = stream.length := by
      rw [rest_eq, Stream.length_skip]
      omega
    obtain rfl := agrees.eq (by omega)
    rw [rest_eq, Stream.skip_sub_length_skip, ← rest_eq]
    exact answer
  · have passed_eq : stream.length - reply.rest.length = count := by
      rw [rest_eq, Stream.length_skip]
      omega
    rw [passed_eq] at agrees ⊢
    have copy_eq := (follows agrees).resolve_left (reader.proceeds copy).ne_stuck
    rwa [Reply.carry, Option.map_id_fun, id] at copy_eq

/-- A rule that answers has passed some tokens.  On any stream that has these and the next two as
well it gives the same construct or fails as well, finds the same issues, passes as many tokens and
ends with the same two in sight. -/
theorem decided_by_what_is_read (reader : Reader rule) {stream : Stream} {reply : Reply α}
    (answer : rule stream = .ok reply) :
    let passed := stream.length - reply.rest.length
    reply.rest = stream.skip passed ∧
      ∀ copy : Stream, (∀ distance ≤ passed + 1, copy.get distance = stream.get distance) →
        rule copy = .ok { reply with rest := copy.skip passed } ∧
          (copy.skip passed).current = reply.rest.current ∧
          (copy.skip passed).peek = reply.rest.peek := by
  intro passed
  have rest_eq : reply.rest = stream.skip passed := by
    obtain ⟨count, rest_eq, -⟩ := reader.foreseen stream stream reply answer
    simp only [passed, rest_eq, Stream.skip_sub_length_skip]
  refine ⟨rest_eq, fun copy same => ?_⟩
  have agrees : stream.Agrees copy (passed + 2) := fun distance lt =>
    same distance (Nat.le_of_lt_succ lt)
  rw [rest_eq]
  exact ⟨reader.eq_of_agrees answer agrees, agrees.skip.current_eq, agrees.skip.peek_eq⟩

/-- A statement with its semicolon.  The name after it is in sight, and what comes then is not. -/
theorem decided_by_what_is_read_sample :
    let stream := Stream.ofText "let a = 2; b + 1"
    let copy := Stream.ofText "let a = 2; b)("
    Reader (statement expression) ∧
      (∀ distance ≤ 5, copy.get distance = stream.get distance) ∧
      ∃ reply, statement expression stream = .ok reply ∧ reply.rest.length = 4 ∧
        statement expression copy = .ok { reply with rest := copy.skip 4 } ∧
        (copy.skip 4).peek = reply.rest.peek := by
  intro stream copy
  have same : ∀ distance ≤ 5, copy.get distance = stream.get distance := by decide +kernel
  have short : stream.Short := by
    change ∀ token ∈ Token.scan "let a = 2; b + 1", _
    decide +kernel
  obtain ⟨reply, answer⟩ := (Reader.statement.proceeds stream).exists_reply short
  have left_eq : reply.rest.length = 4 := by
    have counted : ((statement expression stream).map fun reply => reply.rest.length).toOption =
        some 4 := by decide +kernel
    rw [answer] at counted
    exact Option.some.inj counted
  have passed_eq : stream.length - reply.rest.length = 4 := by
    rw [left_eq]
    decide +kernel
  obtain ⟨-, decided⟩ := decided_by_what_is_read .statement answer
  rw [passed_eq] at decided
  obtain ⟨copy_answer, -, peek_eq⟩ := decided copy same
  exact ⟨.statement, same, reply, answer, left_eq, copy_answer, peek_eq⟩

end Grammar
end MarmosetLang
