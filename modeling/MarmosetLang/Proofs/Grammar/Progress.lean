import MarmosetLang.Proofs.Grammar.Compositional

/-!
# Progress

Rules only ever move forward, and every rule comes to an end: it stops at a numeral that is too
long to be converted, or it answers.  Loops leave fewer tokens ahead each time around, expressions
inside others begin on shorter streams, and whatever binds tightly enough to extend an expression
has a rule that says how.
-/

namespace MarmosetLang

/-- What is left of a stream after moving forward. -/
structure Stream.Within (rest stream : Stream) : Prop where
  /-- The end is the same. -/
  ending_eq : rest.ending = stream.ending
  /-- The tokens ahead are the last ones of those that were ahead. -/
  suffix : rest.tokens <:+ stream.tokens

/-- No numeral ahead is too long to be converted. -/
def Stream.Short (stream : Stream) : Prop :=
  ∀ token ∈ stream.tokens, token.kind = .integer → token.literal.length ≤ Grammar.maxDigits

/-- A numeral ahead has the given number of digits, and they are too many. -/
def Stream.HasLong (stream : Stream) (digits : Nat) : Prop :=
  Grammar.maxDigits < digits ∧
    ∃ token ∈ stream.tokens, token.kind = .integer ∧ token.literal.length = digits

namespace Stream

variable {stream rest last : Stream}

theorem Within.refl (stream : Stream) : stream.Within stream :=
  ⟨rfl, List.suffix_refl _⟩

theorem Within.trans (later : last.Within rest) (within : rest.Within stream) :
    last.Within stream :=
  ⟨later.ending_eq.trans within.ending_eq, later.suffix.trans within.suffix⟩

theorem Within.length_le (within : rest.Within stream) : rest.length ≤ stream.length :=
  within.suffix.length_le

theorem within_advance (stream : Stream) : stream.advance.Within stream :=
  ⟨rfl, List.tail_suffix _⟩

theorem Within.hasLong {digits : Nat} (within : rest.Within stream) (long : rest.HasLong digits) :
    stream.HasLong digits := by
  obtain ⟨too_many, token, member, numeral⟩ := long
  exact ⟨too_many, token, within.suffix.subset member, numeral⟩

theorem Within.advance (within : rest.Within stream) : rest.advance.Within stream.advance := by
  refine ⟨within.ending_eq, ?_⟩
  rw [tokens_advance, tokens_advance, List.suffix_iff_eq_drop.mp within.suffix, List.tail_drop,
    ← List.drop_tail]
  exact List.drop_suffix _ _

/-- What is ahead of what is left was ahead before, further away by the tokens passed. -/
theorem Within.get_eq (within : rest.Within stream) (distance : Nat) :
    rest.get distance = stream.get (distance + (stream.length - rest.length)) := by
  obtain ⟨passed, tokens_eq⟩ := within.suffix
  have passed_eq : stream.length - rest.length = passed.length := by
    rw [length, length, ← tokens_eq, List.length_append, Nat.add_sub_cancel]
  rw [passed_eq, get, get, within.ending_eq, ← tokens_eq, List.getD_eq_getElem?_getD,
    List.getD_eq_getElem?_getD, List.getElem?_append_right (Nat.le_add_left _ _),
    Nat.add_sub_cancel]

theorem length_advance_lt (stream : Stream) (kind : stream.current.kind ≠ .eof) :
    stream.advance.length < stream.length := by
  rw [length, length, stream.tokens_eq kind]
  exact Nat.lt_succ_self _

theorem length_advance_lt_of_peek (kind : stream.peek.kind ≠ .eof) :
    stream.advance.length < stream.length := by
  have shorter := stream.advance.length_advance_lt kind
  have advance_eq := stream.length_advance
  omega

theorem hasLong_current (kind : stream.current.kind = .integer)
    (long : Grammar.maxDigits < stream.current.literal.length) :
    stream.HasLong stream.current.literal.length := by
  refine ⟨long, stream.current, ?_, kind, rfl⟩
  rw [stream.tokens_eq_of_kind kind nofun]
  exact List.mem_cons_self

theorem Short.not_hasLong {digits : Nat} (short : stream.Short) : ¬ stream.HasLong digits := by
  rintro ⟨too_many, token, member, kind, rfl⟩
  exact Nat.not_lt.mpr (short token member kind) too_many

end Stream

namespace Rule

variable {α β : Type} {stream : Stream}

/-! ## Forwards -/

/-- If there is an answer on a stream, what it leaves is left of that stream. -/
def Onward (α : Type) (stream : Stream) (answer : Except Halt (Reply α)) : Prop :=
  ∀ reply, answer = .ok reply → reply.rest.Within stream

theorem onward_ok {reply : Reply α} (within : reply.rest.Within stream) :
    Onward α stream (.ok reply) := by
  rintro _ ⟨⟩
  exact within

theorem onward_error {reason : Halt} : Onward α stream (.error reason) :=
  nofun

theorem Onward.map {answer : Except Halt (Reply α)} {change : Reply α → Reply β}
    (onward : Onward α stream answer) (keeps : ∀ reply, (change reply).rest.Within reply.rest) :
    Onward β stream (answer.map change) := by
  cases answer with
  | error reason => exact onward_error
  | ok reply => exact onward_ok ((keeps reply).trans (onward reply rfl))

theorem Onward.bind {rule : Rule α} {next : α → Rule β} (first : Onward α stream (rule stream))
    (second : ∀ value rest, Onward β rest (next value rest)) :
    Onward β stream (Rule.bind rule next stream) := by
  rw [Rule.bind]
  rcases answer : rule stream with reason | ⟨_ | value, rest, issues, dropped⟩
  · exact onward_error
  · exact onward_ok (first _ answer)
  · have within : rest.Within stream := first _ answer
    have later : Onward β rest
        ((next value rest).map (Reply.followedBy ⟨some value, rest, issues, dropped⟩)) :=
      (second value rest).map fun reply => .refl _
    exact fun reply reply_eq => (later reply reply_eq).trans within

theorem sequential_onward : Sequential Onward where
  done := onward_ok (.refl _)
  stopped := onward_error
  map onward := onward.map fun _ => .refl _
  bind := Onward.bind

/-- No rule ever moves back. -/
theorem compositional_onward : Compositional Onward where
  pure _ _ := onward_ok (.refl _)
  halt _ _ := onward_error
  current _ := onward_ok (.refl _)
  peek _ := onward_ok (.refl _)
  advance stream := onward_ok stream.within_advance
  complain _ _ _ := onward_ok (.refl _)
  bind first second stream := (first stream).bind fun value rest => second value rest
  passing kind always stream := (always stream).map fun reply => by
    split
    · exact reply.rest.within_advance
    · exact .refl _
  attempt always stream := (always stream).map fun reply => by
    split <;> exact .refl _
  many more always := sequential_onward.always_many more always
  foldWhile more always := sequential_onward.always_foldWhile more always

/-! ## Success -/

/-- If there is an answer, it is a construct. -/
def Succeeds (answer : Except Halt (Reply α)) : Prop :=
  ∀ reply, answer = .ok reply → reply.result.isSome

theorem succeeds_ok {value : α} {issues : List Issue} {dropped : Nat} :
    Succeeds (.ok ⟨some value, stream, issues, dropped⟩) := by
  rintro _ ⟨⟩
  rfl

theorem Succeeds.map {answer : Except Halt (Reply α)} {change : Reply α → Reply β}
    (succeeds : Succeeds answer)
    (keeps : ∀ reply, (change reply).result.isSome = reply.result.isSome) :
    Succeeds (answer.map change) := by
  cases answer with
  | error reason => exact nofun
  | ok reply =>
      rintro _ ⟨⟩
      exact (keeps reply).trans (succeeds reply rfl)

theorem Succeeds.bind {rule : Rule α} {next : α → Rule β} (first : Succeeds (rule stream))
    (second : ∀ value rest, Succeeds (next value rest)) :
    Succeeds (Rule.bind rule next stream) := by
  rw [Rule.bind]
  rcases answer : rule stream with reason | ⟨_ | value, rest, issues, dropped⟩
  · exact nofun
  · exact absurd (first _ answer) Bool.false_ne_true
  · change Succeeds ((next value rest).map _)
    exact (second value rest).map fun _ => rfl

theorem succeeds_attempt (rule : Rule α) (stream : Stream) : Succeeds (attempt rule stream) := by
  rw [attempt]
  rcases rule stream with reason | ⟨_ | value, rest, issues, dropped⟩
  · exact nofun
  · exact succeeds_ok
  · exact succeeds_ok

theorem sequential_succeeds : Sequential fun _ _ => Succeeds where
  done := succeeds_ok
  stopped := nofun
  map succeeds := succeeds.map fun _ => Option.isSome_map
  bind := Succeeds.bind

/-! ## Answers -/

/-- A rule comes to an end on a stream.  Either a numeral ahead is too long and the rule stops
there, or it answers: what it leaves is left of the stream, and if it succeeds, its construct and
what it leaves are as demanded. -/
def Answers (rule : Rule α) (stream : Stream) (Demand : α → Stream → Prop) : Prop :=
  (∃ digits, stream.HasLong digits ∧ rule stream = .error (.numeralTooLong digits)) ∨
    ∃ reply, rule stream = .ok reply ∧ reply.rest.Within stream ∧
      ∀ value, reply.result = some value → Demand value reply.rest

/-- A rule comes to an end on a stream, in whatever way. -/
abbrev Proceeds (rule : Rule α) (stream : Stream) : Prop :=
  rule.Answers stream fun _ _ => True

namespace Answers

variable {Demand Other : α → Stream → Prop}

theorem mono {rule : Rule α} (answers : rule.Answers stream Demand)
    (weaker : ∀ value rest, rest.Within stream → Demand value rest → Other value rest) :
    rule.Answers stream Other := by
  obtain long | ⟨reply, answer, within, demand⟩ := answers
  · exact .inl long
  · exact .inr
      ⟨reply, answer, within, fun value result => weaker _ _ within (demand value result)⟩

theorem congr {rule other : Rule α} (same : rule stream = other stream)
    (answers : other.Answers stream Demand) : rule.Answers stream Demand := by
  rwa [Answers, same]

theorem proceeds {rule : Rule α} (answers : rule.Answers stream Demand) : rule.Proceeds stream :=
  answers.mono fun _ _ _ _ => trivial

/-- What holds of all that is left of a stream may be demanded of a rule that answers. -/
theorem of_proceeds {rule : Rule α} (proceeds : rule.Proceeds stream)
    (demand : ∀ value rest, rest.Within stream → Demand value rest) :
    rule.Answers stream Demand :=
  proceeds.mono fun value rest within _ => demand value rest within

/-- No guard stops a rule that comes to an end. -/
theorem ne_stuck {rule : Rule α} (answers : rule.Answers stream Demand) :
    rule stream ≠ .error .stuck := by
  obtain ⟨digits, -, answer⟩ | ⟨reply, answer, -⟩ := answers
  · rw [answer]
    exact nofun
  · rw [answer]
    exact nofun

/-- Where no numeral is too long, a rule that comes to an end answers. -/
theorem exists_reply {rule : Rule α} (answers : rule.Answers stream Demand)
    (short : stream.Short) : ∃ reply, rule stream = .ok reply := by
  obtain ⟨digits, long, -⟩ | ⟨reply, answer, -⟩ := answers
  · exact absurd long short.not_hasLong
  · exact ⟨reply, answer⟩

protected theorem pure {value : α} (demand : Demand value stream) :
    Answers (pure value) stream Demand := by
  refine .inr ⟨_, rfl, .refl _, ?_⟩
  rintro _ ⟨⟩
  exact demand

theorem current : Rule.current.Answers stream fun token rest =>
    token = stream.current ∧ rest = stream := by
  refine .inr ⟨_, rfl, .refl _, ?_⟩
  rintro _ ⟨⟩
  exact ⟨rfl, rfl⟩

theorem peek : Rule.peek.Answers stream fun token rest =>
    token = stream.peek ∧ rest = stream := by
  refine .inr ⟨_, rfl, .refl _, ?_⟩
  rintro _ ⟨⟩
  exact ⟨rfl, rfl⟩

theorem advance : Rule.advance.Answers stream fun _ rest => rest = stream.advance :=
  .inr ⟨_, rfl, stream.within_advance, fun _ _ => rfl⟩

theorem complain {fault : Fault} {token : Token} :
    Answers (Rule.complain fault token) stream Demand :=
  .inr ⟨_, rfl, .refl _, nofun⟩

theorem halt {digits : Nat} (long : stream.HasLong digits) :
    Answers (Rule.halt (.numeralTooLong digits)) stream Demand :=
  .inl ⟨digits, long, rfl⟩

protected theorem bind {rule : Rule α} {next : α → Rule β} {Later : β → Stream → Prop}
    (first : rule.Answers stream Demand)
    (second : ∀ value rest, rest.Within stream → Demand value rest →
      (next value).Answers rest Later) :
    (rule >>= next).Answers stream Later := by
  change Answers (Rule.bind rule next) stream Later
  rw [Answers, Rule.bind]
  obtain ⟨digits, long, answer⟩ | ⟨⟨result, rest, issues, dropped⟩, answer, within, demand⟩ := first
  · rw [answer]
    exact .inl ⟨digits, long, rfl⟩
  · rw [answer]
    cases result with
    | none => exact .inr ⟨_, rfl, within, nofun⟩
    | some value =>
        change (∃ digits, stream.HasLong digits ∧ (next value rest).map _ = _) ∨
          ∃ reply, (next value rest).map _ = .ok reply ∧ _
        obtain ⟨digits, long, later_answer⟩ | ⟨later, later_answer, later_within, later_demand⟩ :=
          second value rest within (demand value rfl)
        · rw [later_answer]
          exact .inl ⟨digits, within.hasLong long, rfl⟩
        · rw [later_answer]
          exact .inr ⟨_, rfl, later_within.trans within, later_demand⟩

theorem ite {condition : Prop} [Decidable condition] {rule other : Rule α}
    (holds : condition → rule.Answers stream Demand)
    (otherwise : ¬ condition → other.Answers stream Demand) :
    Answers (if condition then rule else other) stream Demand := by
  split
  · rename_i yes
    exact holds yes
  · rename_i no
    exact otherwise no

/-- A token that is not the end has been passed if one is expected. -/
theorem expect {kind : Kind} (ne_eof : kind ≠ .eof) :
    (Rule.expect kind).Answers stream fun _ rest =>
      rest = stream.advance ∧ stream.advance.length < stream.length := by
  refine .bind .peek fun token rest _ ⟨token_eq, rest_eq⟩ => ?_
  subst token_eq rest_eq
  refine .ite (fun same => ?_) fun _ => .complain
  refine .bind .advance fun _ later _ later_eq => .pure ⟨later_eq, ?_⟩
  exact Stream.length_advance_lt_of_peek (same ▸ ne_eof)

/-- Changing a reply changes nothing about a rule's coming to an end. -/
theorem mapReply {rule : Rule α} {change : Reply α → Reply β} (answers : rule.Proceeds stream)
    (forward : ∀ reply, (change reply).rest.Within reply.rest) :
    Proceeds (fun stream => (rule stream).map change) stream := by
  obtain ⟨digits, long, answer⟩ | ⟨reply, answer, within, -⟩ := answers
  · exact .inl ⟨digits, long, congrArg (Except.map change) answer⟩
  · refine .inr ⟨change reply, congrArg (Except.map change) answer, ?_, fun _ _ => trivial⟩
    exact (forward reply).trans within

theorem passing {rule : Rule α} (kind : Kind) (answers : rule.Proceeds stream) :
    (Rule.passing kind rule).Proceeds stream := by
  refine answers.mapReply fun reply => ?_
  split
  · exact reply.rest.within_advance
  · exact .refl _

theorem attempt {rule : Rule α} (answers : rule.Proceeds stream) :
    (Rule.attempt rule).Proceeds stream := by
  refine answers.mapReply fun reply => ?_
  split <;> exact .refl _

theorem map {rule : Rule α} (change : α → β) (answers : rule.Proceeds stream) :
    Proceeds (fun stream => (rule stream).map (Reply.map change)) stream :=
  answers.mapReply fun _ => .refl _

/-- A rule that may start only on few enough tokens. -/
theorem guarded {bound : Nat} {rule : Rule α} (few : stream.length < bound)
    (answers : rule.Answers stream Demand) :
    Answers (fun stream => if stream.length < bound then rule stream else .error .stuck) stream
      Demand := by
  simpa only [Answers, if_pos few] using answers

/-- A loop answers if its rule does and leaves fewer tokens ahead wherever it succeeds. -/
theorem many {rule : Rule α} {more : Stream → Bool}
    (step : ∀ start : Stream, start.Within stream → more start = true →
      rule.Answers start fun _ rest => rest.length < start.length) :
    (Rule.many more rule).Proceeds stream := by
  induction stream using many.induct more with
  | case1 stream go ih =>
      have around : Proceeds (rule >>= fun first rest =>
          if rest.length < stream.length then
            (Rule.many more rule rest).map (Reply.map (first :: ·))
          else .error .stuck) stream := by
        refine .bind (step stream (.refl _) go) fun first rest within shorter => ?_
        have rest_proceeds := ih rest shorter
          fun start more_within => step start (more_within.trans within)
        exact guarded shorter (rest_proceeds.map (first :: ·))
      rwa [Proceeds, Answers, Rule.many, if_pos go]
  | case2 stream stop =>
      rw [Proceeds, Answers, Rule.many, if_neg stop]
      exact .inr ⟨_, rfl, .refl _, fun _ _ => trivial⟩

theorem foldWhile {rule : α → Rule α} {more : Stream → Bool}
    (step : ∀ value (start : Stream), start.Within stream → more start = true →
      (rule value).Answers start fun _ rest => rest.length < start.length) (value : α) :
    (Rule.foldWhile more rule value).Proceeds stream := by
  induction value, stream using foldWhile.induct more with
  | case1 value stream go ih =>
      have around : Proceeds (rule value >>= fun next rest =>
          if rest.length < stream.length then Rule.foldWhile more rule next rest
          else .error .stuck) stream := by
        refine .bind (step value stream (.refl _) go) fun next rest within shorter => ?_
        exact guarded shorter (ih next rest shorter
          fun value start more_within => step value start (more_within.trans within))
      rwa [Proceeds, Answers, Rule.foldWhile, if_pos go]
  | case2 value stream stop =>
      rw [Proceeds, Answers, Rule.foldWhile, if_neg stop]
      exact .inr ⟨_, rfl, .refl _, fun _ _ => trivial⟩

end Answers
end Rule
end MarmosetLang
