import MarmosetLang.Proofs.Grammar.Exactness
import MarmosetLang.Proofs.Grammar.Termination
import Mathlib.Logic.Relation

/-!
# The left spine

An expression is read from its first operand on, and each token behind it that binds tightly enough
makes a longer expression of it.  What has been read by then becomes the left operand, the callee or
the container of the longer one, so that reading goes up a spine of first parts.  How tightly a
token has to bind decides where on this spine reading stops, and nothing else: to read an expression
at a lower precedence is to read it at a higher one and then to go on.
-/

namespace MarmosetLang

open Relation (ReflTransGen)

/-- An expression is the first part of a longer one: its left operand, its callee or its
container. -/
inductive Expr.Heads : Expr → Expr → Prop where
  | infixed (operator : Token) (left right : Expr) : Heads left (.infixed operator left right)
  | call (token : Token) (callee : Expr) (arguments : List Expr) :
      Heads callee (.call token callee arguments)
  | index (token : Token) (container position : Expr) :
      Heads container (.index token container position)

namespace Rule

variable {α β γ : Type} {stream : Stream}

/-! ## Going on -/

theorem bind_congr {rule other : Rule α} {next then_next : α → Rule β}
    (same : rule stream = other stream)
    (then_same : ∀ value rest, next value rest = then_next value rest) :
    Rule.bind rule next stream = Rule.bind other then_next stream := by
  rw [Rule.bind, Rule.bind, same]
  rcases other stream with reason | ⟨_ | value, rest, issues, dropped⟩
  · rfl
  · rfl
  · exact congrArg (Except.map _) (then_same value rest)

theorem bind_bind (rule : Rule α) (next : α → Rule β) (last : β → Rule γ) (stream : Stream) :
    Rule.bind (Rule.bind rule next) last stream =
      Rule.bind rule (fun value => Rule.bind (next value) last) stream := by
  rw [Rule.bind, Rule.bind, Rule.bind]
  rcases rule stream with reason | ⟨_ | value, rest, issues, dropped⟩
  · rfl
  · rfl
  · dsimp only
    rw [Rule.bind]
    rcases next value rest with reason | ⟨_ | later, final, more_issues, more_dropped⟩
    · rfl
    · rfl
    · change (last later final).map _ = ((last later final).map _).map _
      rcases last later final with reason | reply
      · rfl
      · simp [Except.map, Reply.followedBy, Nat.add_assoc]

theorem foldWhile_of_not {more : Stream → Bool} {rule : α → Rule α} {value : α}
    (stop : more stream = false) :
    foldWhile more rule value stream = .ok ⟨some value, stream, [], 0⟩ := by
  rw [foldWhile, if_neg (Bool.eq_false_iff.mp stop)]

/-- A loop goes as far as one that asks for more of the stream, and then it goes on. -/
theorem foldWhile_eq_bind {more tighter : Stream → Bool} {rule : α → Rule α}
    (weaker : ∀ stream, tighter stream = true → more stream = true) (value : α) (stream : Stream) :
    foldWhile more rule value stream =
      Rule.bind (foldWhile tighter rule value) (foldWhile more rule) stream := by
  induction value, stream using foldWhile.induct tighter with
  | case1 value stream go ih =>
      let further (loop : α → Rule α) (next : α) : Rule α := fun rest =>
        if rest.length < stream.length then loop next rest else .error .stuck
      have first : foldWhile more rule value stream =
          Rule.bind (rule value) (further (foldWhile more rule)) stream := by
        rw [foldWhile, if_pos (weaker stream go)]
      have first_tighter : foldWhile tighter rule value stream =
          Rule.bind (rule value) (further (foldWhile tighter rule)) stream := by
        rw [foldWhile, if_pos go]
      have later (next : α) (rest : Stream) : further (foldWhile more rule) next rest =
          Rule.bind (further (foldWhile tighter rule) next) (foldWhile more rule) rest := by
        by_cases shorter : rest.length < stream.length
        · have loops (loop : α → Rule α) : further loop next rest = loop next rest :=
            if_pos shorter
          rw [loops, ih next rest shorter]
          exact bind_congr (loops _).symm fun _ _ => rfl
        · have stuck (loop : α → Rule α) : further loop next rest = .error .stuck :=
            if_neg shorter
          rw [stuck, Rule.bind, stuck]
      calc foldWhile more rule value stream
        _ = Rule.bind (rule value) (further (foldWhile more rule)) stream := first
        _ = Rule.bind (rule value) (fun next =>
              Rule.bind (further (foldWhile tighter rule) next) (foldWhile more rule)) stream :=
            bind_congr rfl later
        _ = Rule.bind (Rule.bind (rule value) (further (foldWhile tighter rule)))
              (foldWhile more rule) stream := (bind_bind _ _ _ stream).symm
        _ = Rule.bind (foldWhile tighter rule value) (foldWhile more rule) stream :=
            bind_congr first_tighter.symm fun _ _ => rfl
  | case2 value stream stop =>
      have stopped : foldWhile tighter rule value stream = .ok ⟨some value, stream, [], 0⟩ :=
        foldWhile_of_not (eq_false_of_ne_true stop)
      exact (bind_of_reads stopped).symm

/-! ## Rounds -/

/-- A rule gives a construct and leaves a stream, whatever it finds fault with on the way. -/
def Gives (rule : Rule α) (stream : Stream) (value : α) (rest : Stream) : Prop :=
  ∃ issues dropped, rule stream = .ok ⟨some value, rest, issues, dropped⟩

theorem gives_pure_iff {value found : α} {rest : Stream} :
    Gives (pure value) stream found rest ↔ found = value ∧ rest = stream := by
  constructor
  · rintro ⟨issues, dropped, answer⟩
    cases answer
    exact ⟨rfl, rfl⟩
  · rintro ⟨rfl, rfl⟩
    exact ⟨[], 0, rfl⟩

theorem Gives.exists_of_bind {rule : Rule α} {next : α → Rule β} {value : β} {rest : Stream}
    (gives : (rule >>= next).Gives stream value rest) :
    ∃ first middle, rule.Gives stream first middle ∧ (next first).Gives middle value rest := by
  obtain ⟨issues, dropped, answer⟩ := gives
  change Rule.bind rule next stream = _ at answer
  rw [Rule.bind] at answer
  rcases first_answer : rule stream with reason | ⟨_ | first, middle, first_issues, first_dropped⟩
  · rw [first_answer] at answer
    cases answer
  · rw [first_answer] at answer
    cases answer
  · rw [first_answer] at answer
    change (next first middle).map _ = _ at answer
    rcases next_answer : next first middle with reason | ⟨result, final, more, more_dropped⟩
    · rw [next_answer] at answer
      cases answer
    · rw [next_answer] at answer
      cases answer
      exact ⟨first, middle, ⟨_, _, first_answer⟩, _, _, next_answer⟩

/-- A loop goes round once: the stream asks for more, and the rule makes a value of the last one. -/
def Round (more : Stream → Bool) (rule : α → Rule α) (place next : α × Stream) : Prop :=
  more place.2 = true ∧ (rule place.1).Gives place.2 next.1 next.2

/-- A loop that ends with a value has gone round for it, and then the stream asks for no more. -/
theorem rounds_of_foldWhile {more : Stream → Bool} {rule : α → Rule α} {value last : α}
    {rest : Stream} (gives : Gives (foldWhile more rule value) stream last rest) :
    ReflTransGen (Round more rule) (value, stream) (last, rest) ∧ more rest = false := by
  obtain ⟨issues, dropped, answer⟩ := gives
  induction value, stream using foldWhile.induct more generalizing issues dropped with
  | case1 value stream go ih =>
      rw [foldWhile, if_pos go] at answer
      obtain ⟨next, middle, once, more_issues, more_dropped, again⟩ :=
        Gives.exists_of_bind ⟨issues, dropped, answer⟩
      dsimp only at again
      split at again
      · rename_i shorter
        obtain ⟨rounds, stopped⟩ := ih next middle shorter more_issues more_dropped again
        have round : Round more rule (value, stream) (next, middle) := ⟨go, once⟩
        exact ⟨.head round rounds, stopped⟩
      · cases again
  | case2 value stream stop =>
      have stopped := eq_false_of_ne_true stop
      rw [foldWhile_of_not stopped] at answer
      cases answer
      exact ⟨.refl, stopped⟩

end Rule

namespace Grammar

open Rule (Round)

variable {stream : Stream} {precedence lower higher : Nat}

theorem continues_of_le (le : lower ≤ higher) (stream : Stream)
    (go : continues higher stream = true) : continues lower stream = true := by
  simp only [continues, Bool.and_eq_true, decide_eq_true_eq] at go ⊢
  exact ⟨go.1, Nat.lt_of_le_of_lt le go.2⟩

/-- To read an expression at a lower precedence is to read it at a higher one and then to go on. -/
theorem expression_eq_bind (least : lowest ≤ lower) (le : lower ≤ higher) (stream : Stream) :
    expression lower stream =
      Rule.bind (expression higher)
        (Rule.foldWhile (continues lower) (extend expression)) stream := by
  have unguarded (precedence : Nat) (least : lowest ≤ precedence) (stream : Stream) :
      Rule.bind (operand expression)
          (Rule.foldWhile (continues precedence) (extend expression)) stream =
        expression precedence stream :=
    expressionOver_eq least fun _ _ _ => rfl
  calc expression lower stream
    _ = Rule.bind (operand expression)
          (Rule.foldWhile (continues lower) (extend expression)) stream :=
        (unguarded lower least stream).symm
    _ = Rule.bind (operand expression) (fun left =>
          Rule.bind (Rule.foldWhile (continues higher) (extend expression) left)
            (Rule.foldWhile (continues lower) (extend expression))) stream :=
        Rule.bind_congr rfl (Rule.foldWhile_eq_bind (continues_of_le le))
    _ = Rule.bind (Rule.bind (operand expression)
          (Rule.foldWhile (continues higher) (extend expression)))
            (Rule.foldWhile (continues lower) (extend expression)) stream :=
        (Rule.bind_bind _ _ _ stream).symm
    _ = Rule.bind (expression higher)
          (Rule.foldWhile (continues lower) (extend expression)) stream :=
        Rule.bind_congr (unguarded higher (Nat.le_trans least le) stream) fun _ _ => rfl

/-! ## Up the spine -/

/-- Whatever extends an expression makes it the first part of a longer one. -/
theorem heads_of_extend {nested : Nat → Rule Expr} {left longer : Expr} {rest : Stream}
    (gives : (extend nested left).Gives stream longer rest) : left.Heads longer := by
  obtain ⟨after, start, -, extended⟩ := gives.exists_of_bind
  split at extended
  · obtain ⟨_, _, ⟨⟩⟩ := extended
  · rename_i rule extension
    obtain ⟨_, inner, -, applied⟩ := extended.exists_of_bind
    rcases extension?_eq_some extension with ⟨-, rfl⟩ | ⟨-, rfl⟩ | ⟨-, rfl⟩
    · obtain ⟨operator, _, -, moved⟩ := applied.exists_of_bind
      obtain ⟨_, _, -, operand_read⟩ := moved.exists_of_bind
      obtain ⟨right, _, -, built⟩ := operand_read.exists_of_bind
      obtain ⟨rfl, -⟩ := Rule.gives_pure_iff.mp built
      exact .infixed operator left right
    · obtain ⟨token, _, -, opened⟩ := applied.exists_of_bind
      obtain ⟨arguments, _, -, built⟩ := opened.exists_of_bind
      obtain ⟨rfl, -⟩ := Rule.gives_pure_iff.mp built
      exact .call token left arguments
    · obtain ⟨token, _, -, moved⟩ := applied.exists_of_bind
      obtain ⟨_, _, -, place_read⟩ := moved.exists_of_bind
      obtain ⟨position, _, -, closed⟩ := place_read.exists_of_bind
      obtain ⟨_, _, -, built⟩ := closed.exists_of_bind
      obtain ⟨rfl, -⟩ := Rule.gives_pure_iff.mp built
      exact .index token left position

theorem heads_of_rounds {nested : Nat → Rule Expr} {more : Stream → Bool}
    {place last : Expr × Stream} (rounds : ReflTransGen (Round more (extend nested)) place last) :
    ReflTransGen Expr.Heads place.1 last.1 :=
  rounds.lift Prod.fst fun _ _ round => heads_of_extend round.2

/-- Whatever may make a longer expression has a rule that says how. -/
theorem exists_extension (least : lowest ≤ precedence) (nested : Nat → Rule Expr) (left : Expr)
    (go : continues precedence stream = true) :
    ∃ rule, extension? nested left stream.peek.kind = some rule := by
  have member := mem_extensions_of_continues least go
  revert member
  cases stream.peek.kind <;> simp [extension?, Kind.extensions, Kind.infixes]

theorem continues_eq (least : lowest ≤ precedence) :
    continues precedence = fun stream => decide (precedence < strength stream.peek.kind) := by
  funext stream
  rw [Bool.eq_iff_iff, decide_eq_true_iff]
  constructor
  · intro go
    simp only [continues, Bool.and_eq_true, decide_eq_true_eq] at go
    exact go.2
  · intro tighter
    refine Decidable.byContradiction fun stopped => ?_
    exact Nat.not_lt.mpr (strength_peek_le (eq_false_of_ne_true stopped) least) tighter

/-- An expression is read up to a place.  From the first operand on, every token that binds more
tightly than the given precedence extends it, and the token behind that place does not. -/
structure ReadUpTo (precedence : Nat) (stream : Stream) (tree : Expr) (rest : Stream) : Prop where
  /-- The first operand is read, and then extended as long as the next token binds more tightly. -/
  climbs : ∃ first start, (operand expression).Gives stream first start ∧
    ReflTransGen (Round (fun place => precedence < strength place.peek.kind) (extend expression))
      (first, start) (tree, rest)
  /-- The token after that binds no more tightly. -/
  stops : strength rest.peek.kind ≤ precedence

theorem readUpTo_of_expression (least : lowest ≤ precedence) {tree : Expr} {rest : Stream}
    (gives : (expression precedence).Gives stream tree rest) :
    ReadUpTo precedence stream tree rest := by
  have over_eq : expressionOver expression precedence stream = expression precedence stream :=
    expressionOver_eq least fun _ _ _ => rfl
  rw [Rule.Gives, ← over_eq] at gives
  obtain ⟨first, start, first_read, extended⟩ := Rule.Gives.exists_of_bind gives
  obtain ⟨rounds, stopped⟩ := Rule.rounds_of_foldWhile extended
  rw [continues_eq least] at rounds
  exact ⟨⟨first, start, first_read, rounds⟩, strength_peek_le stopped least⟩

/-- What is read at a lower precedence has on its left spine what is read at a higher one. -/
theorem exists_part (least : lowest ≤ lower) (le : lower ≤ higher) {tree : Expr} {rest : Stream}
    (gives : (expression lower).Gives stream tree rest) :
    ∃ part further, (expression higher).Gives stream part further ∧
      ReflTransGen Expr.Heads part tree ∧ rest.Within further := by
  rw [Rule.Gives, expression_eq_bind least le stream] at gives
  obtain ⟨part, further, part_read, goes_on⟩ := Rule.Gives.exists_of_bind gives
  obtain ⟨rounds, -⟩ := Rule.rounds_of_foldWhile goes_on
  have onward := Rule.sequential_onward.always_foldWhile (continues lower)
    (fun left => Rule.compositional_onward.extend Rule.compositional_onward.expression left)
    part further
  obtain ⟨issues, dropped, answer⟩ := goes_on
  exact ⟨part, further, part_read, heads_of_rounds rounds, onward _ answer⟩

/-- How tightly tokens have to bind decides only how far an expression is read along its left spine.
What fails at a higher precedence fails in the same way at a lower one.  What is read at a lower one
has on its left spine what is read at the higher one, which leaves as many tokens ahead or more.
Reading stops exactly where the next token binds no more tightly than asked for, and wherever it
goes on there is a rule that says how. -/
theorem left_spine (short : stream.Short) (least : lowest ≤ lower) (le : lower ≤ higher) :
    ∃ reply other : Reply Expr,
      expression lower stream = .ok reply ∧ expression higher stream = .ok other ∧
      (other.result = none → reply = other) ∧
      (∀ tree, reply.result = some tree →
        ReadUpTo lower stream tree reply.rest ∧
        ∃ part, other.result = some part ∧ ReadUpTo higher stream part other.rest ∧
          ReflTransGen Expr.Heads part tree ∧ reply.rest.Within other.rest) ∧
      ∀ (place : Stream) (left : Expr), continues lower place = true →
        ∃ rule, extension? expression left place.peek.kind = some rule := by
  have least_higher := Nat.le_trans least le
  have proceeds {precedence : Nat} (least : lowest ≤ precedence) :
      (expression precedence).Proceeds stream := proceeds_expression least
  obtain ⟨reply, answer⟩ := (proceeds least).exists_reply short
  obtain ⟨other, other_answer⟩ := (proceeds least_higher).exists_reply short
  refine ⟨reply, other, answer, other_answer, ?_, ?_, fun place left go =>
    exists_extension least expression left go⟩
  · intro failed
    rw [expression_eq_bind least le stream, Rule.bind, other_answer] at answer
    obtain ⟨result, rest, issues, dropped⟩ := other
    obtain rfl : result = none := failed
    cases answer
    rfl
  · intro tree found
    obtain ⟨result, rest, issues, dropped⟩ := reply
    obtain rfl : result = some tree := found
    have gives : (expression lower).Gives stream tree rest := ⟨issues, dropped, answer⟩
    obtain ⟨part, further, part_gives, heads, within⟩ := exists_part least le gives
    have upTo_part := readUpTo_of_expression least_higher part_gives
    obtain ⟨_, _, part_answer⟩ := part_gives
    rw [other_answer] at part_answer
    cases part_answer
    exact ⟨readUpTo_of_expression least gives, part, rfl, upTo_part, heads, within⟩

/-- The sum `a[0] + b` is read at the lowest precedence, and its first part `a[0]` where only calls
and selections extend an expression. -/
theorem left_spine_sample :
    let stream := Stream.ofText "a[0] + b"
    let element : Expr := .index ⟨.openBracket, "[", 1⟩ (.identifier ⟨.identifier, "a", 0⟩)
      (.integer ⟨.integer, "0", 2⟩ (Decimal.value "0"))
    let sum : Expr := .infixed ⟨.plus, "+", 5⟩ element (.identifier ⟨.identifier, "b", 7⟩)
    stream.Short ∧ lowest ≤ lowest ∧ lowest ≤ operandStrength ∧
      ∃ reply other : Reply Expr,
        expression lowest stream = .ok reply ∧ expression operandStrength stream = .ok other ∧
        reply.result = some sum ∧ other.result = some element ∧
        ReadUpTo lowest stream sum reply.rest ∧ ReadUpTo operandStrength stream element other.rest ∧
        ReflTransGen Expr.Heads element sum ∧ reply.rest.Within other.rest ∧
        ∃ rule, extension? expression element .plus = some rule := by
  intro stream element sum
  have tokens_eq : stream.tokens =
      [⟨.identifier, "a", 0⟩, ⟨.openBracket, "[", 1⟩, ⟨.integer, "0", 2⟩, ⟨.closeBracket, "]", 3⟩,
        ⟨.plus, "+", 5⟩, ⟨.identifier, "b", 7⟩] := by
    decide +kernel
  have short : stream.Short := by
    rw [Stream.Short, tokens_eq]
    decide
  have element_spelled : Spelled (.bare element) stream.tokens (stream.tokens.drop 4) := by
    rw [tokens_eq]
    exact .index rfl (.ungrouped (by decide) (.identifier rfl))
      (.ungrouped (by decide) (.integer rfl (by decide +kernel) (by decide +kernel))) rfl
  have sum_spelled : Spelled (.bare sum) stream.tokens [] := by
    rw [tokens_eq] at element_spelled ⊢
    exact .infixed (by decide) (.ungrouped (by decide) element_spelled)
      (.ungrouped (by decide) (.identifier rfl))
  have stops_element : strength (Token.nextKind (stream.tokens.drop 4)) ≤ operandStrength := by
    rw [tokens_eq]
    decide
  obtain ⟨rest, -, sum_read⟩ :=
    (isRead_of_spelled sum_spelled lowest stream rfl (by decide) (by decide) (by decide)
      (by decide)).reads (by decide)
  obtain ⟨further, ahead, element_read⟩ :=
    (isRead_of_spelled element_spelled operandStrength stream rfl (by decide) (by decide)
      (Nat.le_succ_of_le stops_element) (by rw [tokens_eq]; decide)).reads stops_element
  have peek_eq : further.peek.kind = .plus := by
    rw [Stream.kind_peek, ahead, tokens_eq]
    rfl
  obtain ⟨reply, other, answer, other_answer, -, reached, extended⟩ :=
    left_spine short (Nat.le_refl lowest) (by decide : lowest ≤ operandStrength)
  cases answer.symm.trans sum_read
  cases other_answer.symm.trans element_read
  obtain ⟨upTo, _, ⟨⟩, upTo_element, heads, within⟩ := reached sum rfl
  obtain ⟨rule, found⟩ := extended further element (by simp [continues, peek_eq, strength, lowest])
  exact ⟨short, Nat.le_refl lowest, by decide, _, _, sum_read, element_read, rfl, rfl, upTo,
    upTo_element, heads, within, rule, peek_eq ▸ found⟩

end Grammar
end MarmosetLang
