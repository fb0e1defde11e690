import MarmosetLang.Proofs.Grammar.Marking
import MarmosetLang.Proofs.Grammar.Progress

/-!
# The course of a rule

A rule takes its way through a stream by a few sorts of steps: it passes a token, moves on to the
next one, or gives up at the token where it stands.  Every issue is raised by a step of the last
sort, and the step says at which token.  The course of a rule is the list of these steps with the
issues that they raise.  Marks are left by one more sort of step, at which an expression begins.

Whether the token on which the stream stands is one that is still to be looked at depends on the
rule: it is for a rule that begins a construct, and it is not where a construct has been read or
given up.  Between statements the token may be the end, and then it is not looked at.
-/

namespace MarmosetLang

/-- How far a stream has been looked at. -/
inductive Waypoint where
  /-- The current token begins a statement, or closes the statements before it. -/
  | between (stream : Stream)
  /-- The current token is still to be looked at. -/
  | before (stream : Stream)
  /-- An expression has begun on the current token. -/
  | begun (stream : Stream)
  /-- The current token has been passed. -/
  | behind (stream : Stream)
  /-- A construct has been given up at the current token. -/
  | stuck (stream : Stream)

/-- The stream that has been looked at. -/
def Waypoint.stream : Waypoint → Stream
  | between stream => stream
  | before stream => stream
  | begun stream => stream
  | behind stream => stream
  | stuck stream => stream

/-- The token of an issue gives the cause of it: it is of another kind than expected, it begins no
expression, or it is a numeral that is too large. -/
def Issue.Warranted (issue : Issue) : Prop :=
  match issue.fault with
  | .expected kind => issue.token.kind ≠ kind
  | .noExpression => issue.token.kind ∉ Kind.beginnings
  | .outOfRange =>
      issue.token.kind = .integer ∧ Grammar.maxInteger < Decimal.value issue.token.literal

open Grammar in
/-- One waypoint is reached from another, and the given issues are raised and marks left on the
way. -/
inductive Course (mark : Stream → List Issue) : Waypoint → List Issue → Waypoint → Prop where
  | refl {place : Waypoint} : Course mark place [] place
  | trans {first middle last : Waypoint} {issues more : List Issue}
      (earlier : Course mark first issues middle) (later : Course mark middle more last) :
      Course mark first (issues ++ more) last
  /-- The current token begins a statement, and so it is not the end. -/
  | start {stream : Stream} (kind : stream.current.kind ≠ .eof) :
      Course mark (.between stream) [] (.before stream)
  /-- The current token closes the statements before it. -/
  | close {stream : Stream} (kind : stream.current.kind ≠ .integer) :
      Course mark (.between stream) [] (.behind stream)
  /-- An expression begins on the current token. -/
  | begin {stream : Stream} : Course mark (.before stream) (mark stream) (.begun stream)
  /-- A token with which a statement begins is passed. -/
  | word {stream : Stream} (kind : stream.current.kind ≠ .integer) :
      Course mark (.before stream) [] (.behind stream)
  /-- A token that is no numeral, and with which an expression begins, is passed. -/
  | pass {stream : Stream} (kind : stream.current.kind ≠ .integer) :
      Course mark (.begun stream) [] (.behind stream)
  /-- A numeral that stands for a number that can be held is passed. -/
  | literal {stream : Stream} (kind : stream.current.kind = .integer)
      (short : stream.current.literal.length ≤ maxDigits)
      (in_range : Decimal.value stream.current.literal ≤ maxInteger) :
      Course mark (.begun stream) [] (.behind stream)
  /-- The next token is looked at afresh. -/
  | advance {stream : Stream} (kind : stream.current.kind ≠ .eof) :
      Course mark (.behind stream) [] (.before stream.advance)
  /-- A token that is no numeral is passed in moving on to it. -/
  | move {stream : Stream} (kind : stream.peek.kind ≠ .integer) :
      Course mark (.behind stream) [] (.behind stream.advance)
  /-- Statements may begin after the current token. -/
  | enter {stream : Stream} : Course mark (.behind stream) [] (.between stream.advance)
  /-- After a construct has been given up, statements go on with the next token. -/
  | resume {stream : Stream} : Course mark (.stuck stream) [] (.between stream.advance)
  /-- Behind what has been given up, a token that is no numeral may be skipped. -/
  | skip {stream : Stream} (kind : stream.peek.kind ≠ .integer) :
      Course mark (.stuck stream) [] (.stuck stream.advance)
  /-- What has been read may be left as what has been given up is. -/
  | leave {stream : Stream} : Course mark (.behind stream) [] (.stuck stream)
  | expected {stream : Stream} {kind : Kind} (other : stream.peek.kind ≠ kind) :
      Course mark (.behind stream) [⟨.expected kind, stream.peek⟩] (.stuck stream)
  | noExpression {stream : Stream} (kind : stream.current.kind ∉ Kind.beginnings) :
      Course mark (.begun stream) [⟨.noExpression, stream.current⟩] (.stuck stream)
  | outOfRange {stream : Stream} (kind : stream.current.kind = .integer)
      (short : stream.current.literal.length ≤ maxDigits)
      (oversized : maxInteger < Decimal.value stream.current.literal) :
      Course mark (.begun stream) [⟨.outOfRange, stream.current⟩] (.stuck stream)

namespace Course

variable {mark : Stream → List Issue} {place later : Waypoint} {issues : List Issue}

theorem within (course : Course mark place issues later) :
    later.stream.Within place.stream := by
  induction course with
  | trans _ _ earlier later => exact later.trans earlier
  | advance | move | enter | resume | skip => exact Stream.within_advance _
  | _ => exact .refl _

/-- Without marks, the token of an issue is one that was in sight from the first waypoint on. -/
theorem exists_token_eq_get (course : Course noMarks place issues later) :
    ∀ issue ∈ issues, ∃ distance, issue.token = place.stream.get distance := by
  induction course with
  | trans earlier_course _ earlier later =>
      refine List.forall_mem_append.mpr ⟨earlier, fun issue member => ?_⟩
      obtain ⟨distance, token_eq⟩ := later issue member
      exact ⟨_, token_eq.trans (earlier_course.within.get_eq distance)⟩
  | @expected stream =>
      exact List.forall_mem_singleton.mpr ⟨1, stream.get_one.symm⟩
  | @noExpression stream | @outOfRange stream =>
      exact List.forall_mem_singleton.mpr ⟨0, stream.get_zero.symm⟩
  | _ => exact List.forall_mem_nil _

/-- Without marks, every issue is warranted by the token that gave it. -/
theorem warranted (course : Course noMarks place issues later) :
    ∀ issue ∈ issues, issue.Warranted := by
  induction course with
  | trans _ _ earlier later => exact List.forall_mem_append.mpr ⟨earlier, later⟩
  | expected other => exact List.forall_mem_singleton.mpr other
  | noExpression kind => exact List.forall_mem_singleton.mpr kind
  | outOfRange kind _ oversized => exact List.forall_mem_singleton.mpr ⟨kind, oversized⟩
  | _ => exact List.forall_mem_nil _

/-- A way without issues may go before another one. -/
theorem after {middle : Waypoint} (course : Course mark middle issues later)
    (silent : Course mark place [] middle) : Course mark place issues later :=
  .trans silent course

/-- A way without issues may go behind another one. -/
theorem onwards {middle : Waypoint} (course : Course mark place issues middle)
    (silent : Course mark middle [] later) : Course mark place issues later := by
  rw [← List.append_nil issues]
  exact course.trans silent

end Course

namespace Rule

variable {mark : Stream → List Issue} {α β : Type} {stream : Stream} {start : Waypoint}
  {view : Stream → Waypoint}

/-- The waypoint at which a reply stands: the demanded one, or the one of what has been given up. -/
def waypointOf (finish : Stream → Waypoint) (reply : Reply α) : Waypoint :=
  if reply.result.isSome then finish reply.rest else .stuck reply.rest

/-- If a rule answers on a stream, its issues are those of a course from the given waypoint to the
one at which the reply stands.  If it succeeds, its construct and its stream are as demanded. -/
def Examines (mark : Stream → List Issue) (rule : Rule α) (stream : Stream) (start : Waypoint)
    (finish : Stream → Waypoint) (Demand : α → Stream → Prop) : Prop :=
  ∀ reply, rule stream = .ok reply →
    Course mark start reply.issues (waypointOf finish reply) ∧
      ∀ value, reply.result = some value → Demand value reply.rest

/-- A rule looks at the token on which it begins and passes the one on which it ends. -/
abbrev Inspects (mark : Stream → List Issue) (rule : Rule α) (stream : Stream)
    (Good : α → Prop) : Prop :=
  rule.Examines mark stream (.before stream) .behind fun value _ => Good value

/-- A rule reads the expression that has begun on the current token, and passes its last one. -/
abbrev Pursues (mark : Stream → List Issue) (rule : Rule α) (stream : Stream)
    (Good : α → Prop) : Prop :=
  rule.Examines mark stream (.begun stream) .behind fun value _ => Good value

/-- A rule begins where the current token has been passed, and passes the one on which it ends. -/
abbrev Proceeding (mark : Stream → List Issue) (rule : Rule α) (stream : Stream)
    (Good : α → Prop) : Prop :=
  rule.Examines mark stream (.behind stream) .behind fun value _ => Good value

namespace Examines

variable {finish : Stream → Waypoint} {Demand : α → Stream → Prop} {Good : α → Prop}

theorem congr {rule other : Rule α} (same : rule stream = other stream)
    (examines : other.Examines mark stream start finish Demand) :
    rule.Examines mark stream start finish Demand := by
  rwa [Examines, same]

theorem mono {rule : Rule α} {Other : α → Stream → Prop}
    (examines : rule.Examines mark stream start finish Demand)
    (weaker : ∀ value rest, Demand value rest → Other value rest) :
    rule.Examines mark stream start finish Other := by
  intro reply answer
  obtain ⟨course, demand⟩ := examines reply answer
  exact ⟨course, fun value result => weaker value _ (demand value result)⟩

/-- A way without issues may go before a rule. -/
theorem after {rule : Rule α} {first : Waypoint} (silent : Course mark first [] start)
    (examines : rule.Examines mark stream start finish Demand) :
    rule.Examines mark stream first finish Demand := by
  intro reply answer
  obtain ⟨course, demand⟩ := examines reply answer
  exact ⟨course.after silent, demand⟩

/-! ## Steps -/

protected theorem pure {value : α} (demand : Demand value stream) :
    Examines mark (pure value) stream (view stream) view Demand := by
  rintro _ ⟨⟩
  refine ⟨.refl, ?_⟩
  rintro _ ⟨⟩
  exact demand

theorem current : Rule.current.Examines mark stream (view stream) view fun token rest =>
    token = stream.current ∧ rest = stream := by
  rintro _ ⟨⟩
  refine ⟨.refl, ?_⟩
  rintro _ ⟨⟩
  exact ⟨rfl, rfl⟩

theorem peek : Rule.peek.Examines mark stream (view stream) view fun token rest =>
    token = stream.peek ∧ rest = stream := by
  rintro _ ⟨⟩
  refine ⟨.refl, ?_⟩
  rintro _ ⟨⟩
  exact ⟨rfl, rfl⟩

/-- Moving on is a step of the course. -/
theorem advance (course : Course mark start [] (finish stream.advance)) :
    Rule.advance.Examines mark stream start finish fun _ rest => rest = stream.advance := by
  rintro _ ⟨⟩
  exact ⟨course, fun _ _ => rfl⟩

theorem complain {fault : Fault} {token : Token}
    (course : Course mark start [⟨fault, token⟩] (.stuck stream)) :
    Examines mark (Rule.complain fault token) stream start finish Demand := by
  rintro _ ⟨⟩
  exact ⟨course, nofun⟩

theorem halt {reason : Halt} : Examines mark (Rule.halt reason) stream start finish Demand :=
  nofun

protected theorem bind {rule : Rule α} {next : α → Rule β} {later : Stream → Waypoint}
    {Later : β → Stream → Prop} (first : rule.Examines mark stream start finish Demand)
    (second : ∀ value rest, Demand value rest →
      (next value).Examines mark rest (finish rest) later Later) :
    (rule >>= next).Examines mark stream start later Later := by
  intro reply answer
  change Rule.bind rule next stream = .ok reply at answer
  rw [Rule.bind] at answer
  rcases first_answer : rule stream with reason | ⟨_ | value, rest, issues, dropped⟩
  · rw [first_answer] at answer
    cases answer
  · obtain ⟨course, -⟩ := first _ first_answer
    rw [first_answer] at answer
    cases answer
    refine ⟨course, ?_⟩
    rintro _ ⟨⟩
  · obtain ⟨course, demand⟩ := first _ first_answer
    rw [first_answer] at answer
    dsimp only at answer
    rcases second_answer : next value rest with reason | reply_later
    · rw [second_answer] at answer
      cases answer
    · obtain ⟨later_course, later_demand⟩ :=
        second value rest (demand value rfl) _ second_answer
      rw [second_answer] at answer
      cases answer
      exact ⟨.trans course later_course, later_demand⟩

theorem ite {condition : Prop} [Decidable condition] {rule other : Rule α}
    (holds : condition → rule.Examines mark stream start finish Demand)
    (otherwise : ¬ condition → other.Examines mark stream start finish Demand) :
    Examines mark (if condition then rule else other) stream start finish Demand := by
  split
  · rename_i yes
    exact holds yes
  · rename_i no
    exact otherwise no

/-- Behind an expected token, the current one is of the expected kind. -/
theorem expect {kind : Kind} (ne_integer : kind ≠ .integer) :
    (Rule.expect kind).Examines mark stream (.behind stream) .behind
      fun _ rest => rest.current.kind = kind := by
  refine .bind .peek fun token rest ⟨token_eq, rest_eq⟩ => ?_
  subst token_eq rest_eq
  refine .ite (fun same => ?_) fun other => .complain (.expected other)
  refine .bind (.advance (.move (same ▸ ne_integer))) fun _ last last_eq => .pure ?_
  rw [last_eq, Stream.current_advance, same]

/-- Where replies are changed, so is the course that leads to them. -/
theorem mapReply {rule : Rule α} {change : Reply α → Reply β} {first : Waypoint}
    {last : Stream → Waypoint} {Later : β → Stream → Prop}
    (examines : rule.Examines mark stream start finish Demand)
    (turns : ∀ reply, Course mark start reply.issues (waypointOf finish reply) →
      (∀ value, reply.result = some value → Demand value reply.rest) →
        Course mark first (change reply).issues (waypointOf last (change reply)) ∧
          ∀ value, (change reply).result = some value → Later value (change reply).rest) :
    Examines mark (fun stream => (rule stream).map change) stream first last Later := by
  intro reply answer
  dsimp only at answer
  rcases rule_answer : rule stream with reason | earlier
  · rw [rule_answer] at answer
    cases answer
  · obtain ⟨course, demand⟩ := examines _ rule_answer
    rw [rule_answer] at answer
    cases answer
    exact turns earlier course demand

theorem passing {rule : Rule α} {kind : Kind} (ne_integer : kind ≠ .integer)
    (examines : rule.Examines mark stream start .behind fun value _ => Good value) :
    (Rule.passing kind rule).Examines mark stream start .behind fun value _ => Good value := by
  refine examines.mapReply fun reply course good => ?_
  rcases reply with ⟨result, rest, issues, dropped⟩
  dsimp only
  split
  · rename_i same
    refine ⟨course.onwards ?_, good⟩
    cases result with
    | none => exact .skip (same ▸ ne_integer)
    | some value => exact .move (same ▸ ne_integer)
  · exact ⟨course, good⟩

theorem attempt {rule : Rule α}
    (examines : rule.Examines mark stream start .behind fun value _ => Good value) :
    (Rule.attempt rule).Examines mark stream start .stuck
      fun found _ => ∀ value ∈ found, Good value := by
  refine examines.mapReply fun reply course good => ?_
  rcases reply with ⟨_ | value, rest, issues, dropped⟩
  · refine ⟨course, ?_⟩
    rintro _ ⟨⟩ _ ⟨⟩
  · refine ⟨course.onwards .leave, ?_⟩
    rintro _ ⟨⟩ _ ⟨⟩
    exact good value rfl

/-- Where an expression begins, its marks are left. -/
theorem marked {rule : Rule α}
    (examines : rule.Examines mark stream (.begun stream) finish Demand) :
    (Rule.marked mark rule).Examines mark stream (.before stream) finish Demand :=
  examines.mapReply fun _ course demand => ⟨.trans .begin course, demand⟩

theorem map {rule : Rule α} (change : α → β) {Later : β → Stream → Prop}
    (examines : rule.Examines mark stream start finish Demand)
    (demand : ∀ value rest, Demand value rest → Later (change value) rest) :
    Examines mark (fun stream => (rule stream).map (Reply.map change)) stream start finish
      Later := by
  refine examines.mapReply fun reply course earlier_demand => ⟨?_, fun value result => ?_⟩
  · rwa [waypointOf, Reply.map, Option.isSome_map]
  · obtain ⟨inner, inner_eq, rfl⟩ := Option.map_eq_some_iff.mp result
    exact demand inner _ (earlier_demand inner inner_eq)

/-- A rule that may start only on few enough tokens. -/
theorem guarded {bound : Nat} {rule : Rule α}
    (examines : stream.length < bound → rule.Examines mark stream start finish Demand) :
    Examines mark (fun stream => if stream.length < bound then rule stream else .error .stuck)
      stream start finish Demand := by
  intro reply answer
  dsimp only at answer
  split at answer
  · rename_i few
    exact examines few reply answer
  · cases answer

/-- The course of a loop is that of its rule, again and again. -/
theorem many {rule : Rule α} {more : Stream → Bool} (Good : α → Prop) (Kept : Stream → Prop)
    (kept : Kept stream)
    (step : ∀ start : Stream, Kept start → more start = true →
      rule.Examines mark start (view start) view fun value rest => Good value ∧ Kept rest) :
    (Rule.many more rule).Examines mark stream (view stream) view
      fun values rest => (∀ value ∈ values, Good value) ∧ more rest = false := by
  induction stream using many.induct more with
  | case1 stream go ih =>
      have around : Examines mark (rule >>= fun first rest =>
          if rest.length < stream.length then
            (Rule.many more rule rest).map (Reply.map (first :: ·))
          else .error .stuck) stream (view stream) view
            fun values rest => (∀ value ∈ values, Good value) ∧ more rest = false := by
        refine .bind (step stream kept go) fun first rest found => guarded fun shorter => ?_
        exact (ih rest shorter found.2).map (first :: ·) fun values last demand =>
          ⟨List.forall_mem_cons.mpr ⟨found.1, demand.1⟩, demand.2⟩
      rwa [Examines, Rule.many, if_pos go]
  | case2 stream stop =>
      have stopped : Rule.many more rule stream = (pure [] : Rule (List α)) stream := by
        rw [Rule.many, if_neg stop]
        rfl
      exact .congr stopped (.pure ⟨List.forall_mem_nil _, Bool.eq_false_iff.mpr stop⟩)

theorem foldWhile {rule : α → Rule α} {more : Stream → Bool}
    (step : ∀ value (start : Stream), Good value → more start = true →
      (rule value).Examines mark start (view start) view fun value _ => Good value) {value : α}
    (good : Good value) :
    (Rule.foldWhile more rule value).Examines mark stream (view stream) view
      fun value _ => Good value := by
  induction value, stream using foldWhile.induct more with
  | case1 value stream go ih =>
      have around : Examines mark (rule value >>= fun next rest =>
          if rest.length < stream.length then Rule.foldWhile more rule next rest
          else .error .stuck) stream (view stream) view fun value _ => Good value := by
        exact .bind (step value stream good go) fun next rest next_good =>
          guarded fun shorter => ih next rest shorter next_good
      rwa [Examines, Rule.foldWhile, if_pos go]
  | case2 value stream stop =>
      have stopped : Rule.foldWhile more rule value stream = (pure value : Rule α) stream := by
        rw [Rule.foldWhile, if_neg stop]
        rfl
      exact .congr stopped (.pure good)

end Examines
end Rule
end MarmosetLang
