import MarmosetLang.Proofs.Grammar.Examination
import MarmosetLang.Proofs.Token.Tiling
import Mathlib.Data.List.GetD

/-!
# Issues come in the order of the text

Complaints are raised now at the current token and now at the next one.  Still they never go back in
the text, and they do not pile up: between any two of them a token is passed, or the first is about
what was expected at a token and the second about what cannot begin there.  For this a way through a
stream is measured by what it has still to look at, counted from the end, each token twice: as one
that may not be the expected one, and as one that may not begin an expression.
-/

namespace MarmosetLang

/-! ## Tokens counted from the end -/

namespace Stream

variable {stream rest : Stream}

/-- The token at which so many tokens are left, itself included; with none left, the end. -/
def withLeft (stream : Stream) (left : Nat) : Token :=
  stream.get (stream.length - left)

/-- Counted from the end, tokens keep their places. -/
theorem Within.withLeft_eq (within : rest.Within stream) {left : Nat} (le : left ≤ rest.length) :
    rest.withLeft left = stream.withLeft left := by
  have length_le := within.length_le
  rw [withLeft, withLeft, within.get_eq]
  congr 1
  omega

theorem withLeft_length (stream : Stream) : stream.withLeft stream.length = stream.current := by
  rw [withLeft, Nat.sub_self, get_zero]

theorem withLeft_length_sub_one (stream : Stream) :
    stream.withLeft (stream.length - 1) = stream.peek := by
  rw [← length_advance, ← stream.within_advance.withLeft_eq (Nat.le_refl _), withLeft_length,
    current_advance]

theorem withLeft_zero (stream : Stream) : stream.withLeft 0 = stream.ending := by
  rw [withLeft, get, Nat.sub_zero]
  exact List.getD_eq_default _ _ (Nat.le_refl _)

theorem withLeft_mem (stream : Stream) (left : Nat) :
    stream.withLeft left ∈ stream.tokens ∨ stream.withLeft left = stream.ending := by
  rw [withLeft, get]
  rcases Nat.lt_or_ge (stream.length - left) stream.tokens.length with lt | ge
  · rw [List.getD_eq_getElem _ _ lt]
    exact .inl (List.getElem_mem lt)
  · exact .inr (List.getD_eq_default _ _ ge)

/-- Every token begins behind those before it, and the end behind all of them. -/
def Ordered (stream : Stream) : Prop :=
  (stream.tokens ++ [stream.ending]).Pairwise fun earlier later => earlier.offset < later.offset

theorem ordered_ofText (text : String) : (ofText text).Ordered := by
  obtain ⟨ordered, bounds⟩ := (tiled_scanFrom 0 text.toList).ordered
  refine List.pairwise_append.mpr ⟨ordered, List.pairwise_singleton _ _, ?_⟩
  intro token member ending ending_eq
  rw [List.mem_singleton.mp ending_eq]
  have bound := (bounds token member).2
  rw [Nat.zero_add, String.length_toList] at bound
  exact bound

/-- Fewer tokens are left further on. -/
theorem Ordered.offset_lt (ordered : stream.Ordered) {fewer more : Nat} (lt : fewer < more)
    (le : more ≤ stream.length) :
    (stream.withLeft more).offset < (stream.withLeft fewer).offset := by
  have length_eq : (stream.tokens ++ [stream.ending]).length = stream.length + 1 :=
    List.length_append
  have get_eq (distance : Nat) (bound : distance < (stream.tokens ++ [stream.ending]).length) :
      stream.get distance = (stream.tokens ++ [stream.ending])[distance] := by
    rw [get, List.getElem_append]
    split
    · rename_i ahead
      exact List.getD_eq_getElem _ _ ahead
    · rename_i beyond
      rw [List.getElem_singleton]
      exact List.getD_eq_default _ _ (Nat.le_of_not_lt beyond)
  rw [withLeft, withLeft, get_eq _ (by omega), get_eq _ (by omega)]
  exact List.pairwise_iff_getElem.mp ordered _ _ _ _ (by omega)

theorem Ordered.offset_le (ordered : stream.Ordered) {fewer more : Nat} (le : fewer ≤ more)
    (bound : more ≤ stream.length) :
    (stream.withLeft more).offset ≤ (stream.withLeft fewer).offset := by
  rcases Nat.eq_or_lt_of_le le with rfl | lt
  · exact Nat.le_refl _
  · exact Nat.le_of_lt (ordered.offset_lt lt bound)

end Stream

/-! ## Heights

The height of a waypoint is what is still to be looked at from there on.  The height of an issue is
odd if no expression can begin with its token, or no number can be held, and even if another token
was expected there. -/

/-- Whether another token was expected. -/
def Issue.isExpected (issue : Issue) : Bool :=
  match issue.fault with
  | .expected _ => true
  | .noExpression => false
  | .outOfRange => false

/-- What is left at a waypoint to be looked at. -/
def Waypoint.height : Waypoint → Nat
  | between stream => if stream.length = 0 then 0 else 2 * stream.length + 1
  | before stream => 2 * stream.length + 1
  | begun stream => 2 * stream.length + 1
  | behind stream => 2 * stream.length
  | stuck stream => 2 * stream.length - 1

/-- An issue is raised at the token of a stream that has the given height. -/
structure Issue.RaisedAt (issue : Issue) (stream : Stream) (height : Nat) : Prop where
  /-- The token is ahead. -/
  left_le : (height - 1) / 2 ≤ stream.length
  /-- Each token has two heights. -/
  token_eq : issue.token = stream.withLeft ((height - 1) / 2)
  /-- The upper one is for what was expected. -/
  isExpected_iff : issue.isExpected = true ↔ height % 2 = 0

/-- Issues are raised at heights of a stream that go down from one to another. -/
inductive Descending (stream : Stream) : Nat → List Issue → Nat → Prop where
  | nil {high low : Nat} (le : low ≤ high) : Descending stream high [] low
  | cons {high height low : Nat} {issue : Issue} {issues : List Issue} (le : height ≤ high)
      (raised : issue.RaisedAt stream height) (later : Descending stream (height - 1) issues low) :
      Descending stream high (issue :: issues) low

variable {stream rest : Stream} {issue : Issue} {issues more : List Issue}
  {high higher middle low height : Nat}

theorem Issue.RaisedAt.within (raised : issue.RaisedAt rest height) (within : rest.Within stream) :
    issue.RaisedAt stream height where
  left_le := Nat.le_trans raised.left_le within.length_le
  token_eq := raised.token_eq.trans (within.withLeft_eq raised.left_le)
  isExpected_iff := raised.isExpected_iff

namespace Descending

theorem single (raised : issue.RaisedAt stream height) (le : height ≤ high)
    (lt : low ≤ height - 1) : Descending stream high [issue] low :=
  .cons le raised (.nil lt)

theorem within (descending : Descending rest high issues low) (within : rest.Within stream) :
    Descending stream high issues low := by
  induction descending with
  | nil le => exact .nil le
  | cons le raised _ ih => exact .cons le (raised.within within) ih

theorem raise (descending : Descending stream high issues low) (le : high ≤ higher) :
    Descending stream higher issues low := by
  cases descending with
  | nil low_le => exact .nil (Nat.le_trans low_le le)
  | cons height_le raised later => exact .cons (Nat.le_trans height_le le) raised later

theorem trans (first : Descending stream high issues middle)
    (second : Descending stream middle more low) :
    Descending stream high (issues ++ more) low := by
  induction first with
  | nil le => exact second.raise le
  | cons le raised _ ih => exact .cons le raised (ih second)

theorem exists_raisedAt (descending : Descending stream high issues low) :
    ∀ issue ∈ issues, ∃ height ≤ high, issue.RaisedAt stream height := by
  induction descending with
  | nil => exact List.forall_mem_nil _
  | @cons high height low issue issues le raised later ih =>
      refine List.forall_mem_cons.mpr ⟨⟨height, le, raised⟩, fun other member => ?_⟩
      obtain ⟨lower, lower_le, other_raised⟩ := ih other member
      exact ⟨lower, by omega, other_raised⟩

/-- What holds of any two issues of which the second is raised further down holds all along. -/
theorem pairwise {Related : Issue → Issue → Prop}
    (related : ∀ issue other upper lower, issue.RaisedAt stream upper →
      other.RaisedAt stream lower → lower ≤ upper - 1 → Related issue other)
    (descending : Descending stream high issues low) : issues.Pairwise Related := by
  induction descending with
  | nil => exact .nil
  | cons le raised later ih =>
      refine .cons (fun other member => ?_) ih
      obtain ⟨lower, lower_le, other_raised⟩ := later.exists_raisedAt other member
      exact related _ _ _ _ raised other_raised lower_le

end Descending

/-! ## Every step goes down -/

theorem raisedAt_peek (stream : Stream) (kind : Kind) :
    Issue.RaisedAt ⟨.expected kind, stream.peek⟩ stream (2 * stream.length) where
  left_le := by omega
  token_eq := by
    have left_eq : (2 * stream.length - 1) / 2 = stream.length - 1 := by omega
    rw [left_eq, stream.withLeft_length_sub_one]
  isExpected_iff := iff_of_true rfl (Nat.mul_mod_right 2 _)

theorem raisedAt_current (stream : Stream) {fault : Fault}
    (other : Issue.isExpected ⟨fault, stream.current⟩ = false) :
    Issue.RaisedAt ⟨fault, stream.current⟩ stream (2 * stream.length + 1) where
  left_le := by omega
  token_eq := by
    have left_eq : (2 * stream.length + 1 - 1) / 2 = stream.length := by omega
    rw [left_eq, stream.withLeft_length]
  isExpected_iff := by
    rw [other]
    refine iff_of_false Bool.false_ne_true ?_
    omega

/-- Along a course issues are raised further and further down. -/
theorem Course.descending {place later : Waypoint} (course : Course noMarks place issues later) :
    Descending place.stream place.height issues later.height := by
  induction course with
  | refl => exact .nil (Nat.le_refl _)
  | trans earlier later first second => exact first.trans (second.within earlier.within)
  | @start stream kind =>
      have shorter := stream.length_advance_lt kind
      refine .nil ?_
      rw [Waypoint.height, Waypoint.height, if_neg (by omega)]
  | @close stream kind =>
      refine .nil ?_
      rw [Waypoint.height, Waypoint.height]
      split <;> omega
  | begin => exact .nil (Nat.le_refl _)
  | word | pass | literal | leave =>
      refine .nil ?_
      rw [Waypoint.height, Waypoint.height]
      omega
  | @advance stream kind =>
      have shorter := stream.length_advance_lt kind
      refine .nil ?_
      rw [Waypoint.height, Waypoint.height, stream.length_advance]
      omega
  | @move stream | @skip stream =>
      refine .nil ?_
      rw [Waypoint.height, Waypoint.height, stream.length_advance]
      omega
  | @enter stream | @resume stream =>
      refine .nil ?_
      rw [Waypoint.height, Waypoint.height, stream.length_advance]
      split <;> omega
  | @expected stream kind other =>
      exact .single (raisedAt_peek stream kind) (Nat.le_refl _) (Nat.le_refl _)
  | @noExpression stream kind =>
      refine .single (raisedAt_current stream rfl) (Nat.le_refl _) ?_
      rw [Waypoint.height]
      omega
  | @outOfRange stream kind =>
      refine .single (raisedAt_current stream rfl) (Nat.le_refl _) ?_
      rw [Waypoint.height]
      omega

/-! ## Two issues

What the heights of two issues of a text say about their tokens. -/

/-- One issue comes before another one. -/
structure Issue.Precedes (issue other : Issue) : Prop where
  /-- It is no later in the text. -/
  offset_le : issue.token.offset ≤ other.token.offset
  /-- Where it is at the same token, it is about what was expected there, and the other is not. -/
  sorts : issue.token = other.token → issue.token.kind ≠ .eof →
    issue.isExpected = true ∧ other.isExpected = false
  /-- Where both are at the end, one of them is about what was expected. -/
  ends : issue.token.kind = .eof → other.token.kind = .eof →
    issue.isExpected = true ∨ other.isExpected = true

theorem Issue.RaisedAt.kind_eq_eof_iff (raised : issue.RaisedAt stream height) :
    issue.token.kind = .eof ↔ (height - 1) / 2 = 0 := by
  rw [raised.token_eq]
  constructor
  · intro kind
    refine Decidable.byContradiction fun some_left => ?_
    have lt : stream.length - (height - 1) / 2 < stream.tokens.length := by
      have left_le := raised.left_le
      change _ < stream.length
      omega
    rw [Stream.withLeft, Stream.get, List.getD_eq_getElem _ _ lt] at kind
    exact stream.kind_ne_eof _ (List.getElem_mem lt) kind
  · intro none_left
    rw [none_left, stream.withLeft_zero, stream.kind_ending]

theorem precedes_of_raisedAt (ordered : stream.Ordered) {other : Issue} {upper lower : Nat}
    (raised : issue.RaisedAt stream upper) (other_raised : other.RaisedAt stream lower)
    (below : lower ≤ upper - 1) : issue.Precedes other where
  offset_le := by
    rw [raised.token_eq, other_raised.token_eq]
    exact ordered.offset_le (by omega) raised.left_le
  sorts := by
    intro token_eq not_eof
    rw [Ne, raised.kind_eq_eof_iff] at not_eof
    have left_eq : (lower - 1) / 2 = (upper - 1) / 2 := by
      refine Decidable.byContradiction fun differ => ?_
      have further := ordered.offset_lt (show (lower - 1) / 2 < (upper - 1) / 2 by omega)
        raised.left_le
      rw [← raised.token_eq, ← other_raised.token_eq, token_eq] at further
      exact Nat.lt_irrefl _ further
    rw [← Bool.not_eq_true, raised.isExpected_iff, other_raised.isExpected_iff]
    omega
  ends := by
    intro ended other_ended
    rw [raised.kind_eq_eof_iff] at ended
    rw [other_raised.kind_eq_eof_iff] at other_ended
    rw [raised.isExpected_iff, other_raised.isExpected_iff]
    omega

namespace Grammar

/-- The issues of a parse come in the order of their tokens. -/
theorem precedes_of_parse (ordered : stream.Ordered) {parsed : Parsed}
    (parse_eq : parse stream = .ok parsed) : parsed.issues.Pairwise Issue.Precedes := by
  obtain ⟨last, course, -⟩ := course_of_parse parse_eq
  exact course.descending.pairwise fun _ _ _ _ => precedes_of_raisedAt ordered

theorem mem_of_parse {parsed : Parsed} (parse_eq : parse stream = .ok parsed) :
    ∀ issue ∈ parsed.issues, issue.token ∈ stream.tokens ∨ issue.token = stream.ending := by
  obtain ⟨last, course, -⟩ := course_of_parse parse_eq
  intro issue member
  obtain ⟨height, -, raised⟩ := course.descending.exists_raisedAt issue member
  rw [raised.token_eq]
  exact stream.withLeft_mem _

/-- At most one of some issues has a property, if of any two of them it holds of one at most. -/
theorem countP_le_one {issues : List Issue} {p : Issue → Bool}
    (pairwise : issues.Pairwise fun issue other => ¬ (p issue = true ∧ p other = true)) :
    issues.countP p ≤ 1 := by
  induction pairwise with
  | nil => exact Nat.zero_le 1
  | @cons issue others apart _ ih =>
      by_cases holds : p issue = true
      · have none_other : others.countP p = 0 :=
          List.countP_eq_zero.mpr fun other member also => apart other member ⟨holds, also⟩
        rw [List.countP_cons_of_pos holds, none_other]
      · rw [List.countP_cons_of_neg holds]
        exact ih

/-- The issues of a text are about tokens of it or its end, in the order of the text.  At each token
before the end there is at most one issue about what was expected there, and at most one other
issue; at the end no expression is missed more than once.  What the issues say is so, and they name
the kinds of the tokens that they are about. -/
theorem issues_in_order (text : String) (short : (Stream.ofText text).Short) :
    ∃ parsed, parseText text = .ok parsed ∧
      (∀ issue ∈ parsed.issues,
        issue.token ∈ Token.scan text ∨ issue.token = Token.endOf text.length) ∧
      parsed.issues.Pairwise
        (fun earlier later => earlier.token.offset ≤ later.token.offset) ∧
      (∀ token : Token, token.kind ≠ .eof →
        parsed.issues.countP (fun issue => issue.token = token && issue.isExpected) ≤ 1 ∧
        parsed.issues.countP (fun issue => issue.token = token && !issue.isExpected) ≤ 1) ∧
      parsed.issues.countP
        (fun issue => issue.token.kind = .eof && issue.fault = .noExpression) ≤ 1 ∧
      ∀ issue ∈ parsed.issues,
        (∀ kind, issue.fault = .expected kind → issue.token.kind ≠ kind ∧
          issue.message = "expected next token to be " ++ kind.name ++ ", got " ++
            issue.token.kind.name ++ " instead") ∧
        (issue.fault = .noExpression → issue.token.kind ∉ Kind.beginnings ∧
          issue.message = "no prefix parse function found for " ++ issue.token.kind.name) := by
  obtain ⟨parsed, parse_eq⟩ := exists_parse_eq short
  have precedes := precedes_of_parse (Stream.ordered_ofText text) parse_eq
  refine ⟨parsed, parse_eq, mem_of_parse parse_eq, precedes.imp Issue.Precedes.offset_le,
    fun token not_eof => ⟨?_, ?_⟩, ?_, fun issue member => ⟨?_, ?_⟩⟩
  · refine countP_le_one (precedes.imp fun {issue other} before both => ?_)
    simp only [Bool.and_eq_true, decide_eq_true_eq] at both
    obtain ⟨⟨rfl, -⟩, same, expected⟩ := both
    have unexpected := (before.sorts same.symm not_eof).2
    exact Bool.false_ne_true (unexpected.symm.trans expected)
  · refine countP_le_one (precedes.imp fun {issue other} before both => ?_)
    simp only [Bool.and_eq_true, decide_eq_true_eq, Bool.not_eq_true'] at both
    obtain ⟨⟨rfl, unexpected⟩, same, -⟩ := both
    have expected := (before.sorts same.symm not_eof).1
    exact Bool.false_ne_true (unexpected.symm.trans expected)
  · refine countP_le_one (precedes.imp fun {issue other} before both => ?_)
    simp only [Bool.and_eq_true, decide_eq_true_eq] at both
    obtain ⟨⟨ended, missed⟩, other_ended, other_missed⟩ := both
    rcases before.ends ended other_ended with expected | expected
    · rw [Issue.isExpected, missed] at expected
      exact Bool.false_ne_true expected
    · rw [Issue.isExpected, other_missed] at expected
      exact Bool.false_ne_true expected
  · intro kind fault_eq
    have warranted := warranted_of_parse parse_eq issue member
    rw [Issue.Warranted, fault_eq] at warranted
    exact ⟨warranted, by rw [Issue.message, fault_eq]⟩
  · intro fault_eq
    have warranted := warranted_of_parse parse_eq issue member
    rw [Issue.Warranted, fault_eq] at warranted
    exact ⟨warranted, by rw [Issue.message, fault_eq]⟩

/-- A text with an issue of each sort, two of them about its second token. -/
theorem issues_in_order_sample :
    let text := "let ) 9223372036854775808"
    (Stream.ofText text).Short ∧ ∃ parsed, parseText text = .ok parsed ∧
      (∀ issue ∈ parsed.issues,
        issue.token ∈ Token.scan text ∨ issue.token = Token.endOf text.length) ∧
      parsed.issues.Pairwise
        (fun earlier later => earlier.token.offset ≤ later.token.offset) := by
  intro text
  have short : (Stream.ofText text).Short := by
    change ∀ token ∈ Token.scan "let ) 9223372036854775808", _
    decide +kernel
  obtain ⟨parsed, parse_eq, places, ordered, -⟩ := issues_in_order text short
  exact ⟨short, parsed, parse_eq, places, ordered⟩

end Grammar
end MarmosetLang
