import MarmosetLang.Proofs.Grammar.Examination
import MarmosetLang.Proofs.Grammar.Reading
import MarmosetLang.Proofs.Token.Tiling

/-!
# What becomes of numerals

No numeral is ever skipped or looked at twice, whatever else is wrong around it.  Each one becomes a
literal of a number that can be held, or gives an issue of its own, or ends all parsing because it
has too many digits to be converted.  So the numerals that a whole text is complained of for are
just those that are too large, in order, and a text gets an answer exactly if none of its numerals
is too long.
-/

namespace MarmosetLang

namespace Token

/-- The numerals among some tokens, in order. -/
def numerals (tokens : List Token) : List Token :=
  tokens.filter fun token => token.kind = .integer

/-- Whether the digits of a numeral stand for a number too large to hold. -/
def isOversized (numeral : Token) : Bool :=
  Grammar.maxInteger < Decimal.value numeral.literal

theorem mem_numerals {tokens : List Token} {token : Token} :
    token ∈ numerals tokens ↔ token ∈ tokens ∧ token.kind = .integer := by
  simp [numerals]

end Token

/-- The numerals that some issues complain of as too large, in order. -/
def Issue.oversized (issues : List Issue) : List Token :=
  (issues.filter fun issue => issue.fault = .outOfRange).map Issue.token

namespace Stream

variable {stream : Stream}

/-- The numerals ahead, the current token included. -/
def numeralsAhead (stream : Stream) : List Token :=
  Token.numerals stream.tokens

/-- The numerals after the current token. -/
def numeralsBeyond (stream : Stream) : List Token :=
  Token.numerals stream.advance.tokens

theorem numeralsAhead_eq (kind : stream.current.kind ≠ .integer) :
    stream.numeralsAhead = stream.numeralsBeyond := by
  unfold numeralsAhead numeralsBeyond
  cases tokens : stream.tokens with
  | nil => rw [tokens_advance, tokens, List.tail_nil]
  | cons token rest =>
      rw [current_eq tokens] at kind
      rw [tokens_advance_eq tokens, Token.numerals, List.filter_cons_of_neg (by simpa using kind)]
      rfl

theorem numeralsAhead_eq_cons (kind : stream.current.kind = .integer) :
    stream.numeralsAhead = stream.current :: stream.numeralsBeyond := by
  unfold numeralsAhead numeralsBeyond
  rw [stream.tokens_eq_of_kind kind nofun, Token.numerals,
    List.filter_cons_of_pos (by simpa using kind)]
  rfl

/-- Moving on to a token that is no numeral passes none. -/
theorem numeralsBeyond_advance (kind : stream.peek.kind ≠ .integer) :
    stream.advance.numeralsBeyond = stream.numeralsBeyond :=
  (@numeralsAhead_eq stream.advance kind).symm

end Stream

/-- Some numerals have been examined: none of them is too long, and the issues found complain of
just those that are too large. -/
structure Examined (numerals : List Token) (issues : List Issue) : Prop where
  /-- No numeral is too long. -/
  short : ∀ numeral ∈ numerals, numeral.literal.length ≤ Grammar.maxDigits
  /-- The ones that are too large have been complained of. -/
  oversized_eq : Issue.oversized issues = numerals.filter Token.isOversized

theorem Examined.nil : Examined [] [] :=
  ⟨List.forall_mem_nil _, rfl⟩

theorem Examined.append {numerals others : List Token} {issues more : List Issue}
    (first : Examined numerals issues) (second : Examined others more) :
    Examined (numerals ++ others) (issues ++ more) where
  short := List.forall_mem_append.mpr ⟨first.short, second.short⟩
  oversized_eq := by
    have oversized_append : Issue.oversized (issues ++ more) =
        Issue.oversized issues ++ Issue.oversized more := by
      simp [Issue.oversized]
    rw [oversized_append, List.filter_append, first.oversized_eq, second.oversized_eq]

/-- An issue is about each numeral that is too large. -/
theorem Examined.exists_issue {numerals : List Token} {issues : List Issue}
    (examined : Examined numerals issues) {token : Token} (member : token ∈ numerals)
    (oversized : Grammar.maxInteger < Decimal.value token.literal) :
    ∃ issue ∈ issues, issue.token = token ∧
      issue.message = "could not parse \"" ++ token.literal ++ "\" as integer" := by
  have complained : token ∈ Issue.oversized issues := by
    rw [examined.oversized_eq]
    exact List.mem_filter.mpr ⟨member, decide_eq_true oversized⟩
  obtain ⟨issue, issue_mem, rfl⟩ := List.mem_map.mp complained
  obtain ⟨found, fault⟩ := List.mem_filter.mp issue_mem
  refine ⟨issue, found, rfl, ?_⟩
  rw [Issue.message, of_decide_eq_true fault]

/-- The numerals that are still to be examined at a waypoint. -/
def Waypoint.numerals : Waypoint → List Token
  | between stream => stream.numeralsAhead
  | before stream => stream.numeralsAhead
  | begun stream => stream.numeralsAhead
  | behind stream => stream.numeralsBeyond
  | stuck stream => stream.numeralsBeyond

/-- The numerals between two waypoints are examined on the way from the one to the other. -/
theorem Course.exists_examined {place later : Waypoint} {issues : List Issue}
    (course : Course noMarks place issues later) :
    ∃ numerals, place.numerals = numerals ++ later.numerals ∧ Examined numerals issues := by
  induction course with
  | refl | start | begin | advance | enter | resume | leave => exact ⟨[], rfl, .nil⟩
  | @trans _ _ _ issues more _ _ earlier later =>
      obtain ⟨numerals, left_eq, examined⟩ := earlier
      obtain ⟨others, rest_eq, also_examined⟩ := later
      refine ⟨numerals ++ others, ?_, examined.append also_examined⟩
      rw [left_eq, rest_eq, List.append_assoc]
  | close kind | word kind | pass kind => exact ⟨[], Stream.numeralsAhead_eq kind, .nil⟩
  | move kind | skip kind => exact ⟨[], (Stream.numeralsBeyond_advance kind).symm, .nil⟩
  | @literal stream kind short in_range =>
      refine ⟨[stream.current], Stream.numeralsAhead_eq_cons kind, ?_, ?_⟩
      · exact List.forall_mem_singleton.mpr short
      · simp [Issue.oversized, Token.isOversized, in_range]
  | expected => exact ⟨[], rfl, List.forall_mem_nil _, rfl⟩
  | noExpression kind =>
      have no_numeral := ne_of_mem_of_not_mem (by decide : Kind.integer ∈ Kind.beginnings) kind
      exact ⟨[], Stream.numeralsAhead_eq no_numeral.symm, List.forall_mem_nil _, rfl⟩
  | @outOfRange stream kind short oversized =>
      refine ⟨[stream.current], Stream.numeralsAhead_eq_cons kind, ?_, ?_⟩
      · exact List.forall_mem_singleton.mpr short
      · simp [Issue.oversized, Token.isOversized, oversized]

namespace Grammar

variable {nested : Nat → Rule Expr} {stream : Stream}

/-- Where a stream is parsed, all its numerals have been examined, and the literals of the program
that comes out can be held. -/
theorem examined_of_parse {parsed : Parsed} (parse_eq : parse stream = .ok parsed) :
    Examined (Token.numerals stream.tokens) parsed.issues ∧
      parsed.program.Every Expr.InRange := by
  obtain ⟨last, course, ended, good⟩ := course_of_parse parse_eq
  obtain ⟨numerals, ahead_eq, examined⟩ := course.exists_examined
  have nothing_left : last.numeralsAhead = [] := by
    rw [Stream.numeralsAhead, ended]
    rfl
  change stream.numeralsAhead = numerals ++ last.numeralsAhead at ahead_eq
  rw [nothing_left, List.append_nil] at ahead_eq
  refine ⟨?_, good⟩
  change Examined stream.numeralsAhead parsed.issues
  rwa [ahead_eq]

theorem short_of_parse {parsed : Parsed} (parse_eq : parse stream = .ok parsed) : stream.Short :=
  fun _ member kind =>
    (examined_of_parse parse_eq).1.short _ (Token.mem_numerals.mpr ⟨member, kind⟩)

/-- A numeral that is too large is complained of. -/
theorem exists_parse_of_oversized (short : stream.Short) {token : Token}
    (member : token ∈ stream.tokens) (kind : token.kind = .integer)
    (oversized : maxInteger < Decimal.value token.literal) :
    ∃ parsed, parse stream = .ok parsed ∧ ∃ issue ∈ parsed.issues, issue.token = token ∧
      issue.message = "could not parse \"" ++ token.literal ++ "\" as integer" := by
  obtain ⟨parsed, parse_eq⟩ := exists_parse_eq short
  obtain ⟨examined, -⟩ := examined_of_parse parse_eq
  exact ⟨parsed, parse_eq,
    examined.exists_issue (Token.mem_numerals.mpr ⟨member, kind⟩) oversized⟩

/-- A text gets a program and its issues, with one for each numeral that is too large, exactly if
none of its numerals is too long to be converted. -/
theorem complains_iff_short (text : String) :
    (∃ parsed, parseText text = .ok parsed ∧
      ∀ token ∈ (Stream.ofText text).tokens, token.kind = .integer →
        maxInteger < Decimal.value token.literal →
          ∃ issue ∈ parsed.issues, issue.token = token ∧
            issue.message = "could not parse \"" ++ token.literal ++ "\" as integer") ↔
      (Stream.ofText text).Short := by
  constructor
  · rintro ⟨parsed, parse_eq, -⟩
    exact short_of_parse parse_eq
  · intro short
    obtain ⟨parsed, parse_eq⟩ := exists_parse_eq short
    obtain ⟨examined, -⟩ := examined_of_parse parse_eq
    exact ⟨parsed, parse_eq, fun token member kind oversized =>
      examined.exists_issue (Token.mem_numerals.mpr ⟨member, kind⟩) oversized⟩

/-! ## No numeral is examined twice

A numeral is examined where an expression begins on it.  So it is marked there, and the marks are
counted. -/

/-- A mark is left wherever an expression begins on a numeral. -/
def numeralMark (stream : Stream) : List Issue :=
  if stream.current.kind = .integer then [⟨.noExpression, stream.current⟩] else []

/-- Whether an issue is such a mark.  No issue of a parse is one, because numerals begin
expressions. -/
def isNumeralMark (issue : Issue) : Bool :=
  issue.fault = .noExpression && issue.token.kind = .integer

/-- The numerals that have been marked, in order. -/
def markedNumerals (issues : List Issue) : List Token :=
  (issues.filter isNumeralMark).map Issue.token

theorem isNumeralMark_of_mem {issue : Issue} (left : issue ∈ numeralMark stream) :
    isNumeralMark issue = true := by
  rw [numeralMark] at left
  split at left
  · rename_i kind
    rw [List.mem_singleton.mp left, isNumeralMark, kind]
    rfl
  · exact absurd left List.not_mem_nil

theorem isNumeralMark_eq_false {issue : Issue} (warranted : issue.Warranted) :
    isNumeralMark issue = false := by
  refine Bool.eq_false_iff.mpr fun marked => ?_
  simp only [isNumeralMark, Bool.and_eq_true, decide_eq_true_eq] at marked
  rw [Issue.Warranted, marked.1, marked.2] at warranted
  exact warranted (by decide)

/-- The numerals that are still to be marked at a waypoint. -/
def unmarkedNumerals : Waypoint → List Token
  | .between stream => stream.numeralsAhead
  | .before stream => stream.numeralsAhead
  | .begun stream => stream.numeralsBeyond
  | .behind stream => stream.numeralsBeyond
  | .stuck stream => stream.numeralsBeyond

theorem unmarkedNumerals_eq {place later : Waypoint} {issues : List Issue}
    (course : Course numeralMark place issues later) :
    unmarkedNumerals place = markedNumerals issues ++ unmarkedNumerals later := by
  induction course with
  | refl | start | pass | literal | advance | enter | resume | leave => rfl
  | @trans _ _ _ issues more _ _ earlier later =>
      have marked_append : markedNumerals (issues ++ more) =
          markedNumerals issues ++ markedNumerals more := by
        simp [markedNumerals]
      rw [earlier, later, marked_append, List.append_assoc]
  | @begin stream =>
      change stream.numeralsAhead = markedNumerals (numeralMark stream) ++ stream.numeralsBeyond
      rw [numeralMark]
      split
      · rename_i kind
        rw [Stream.numeralsAhead_eq_cons kind]
        simp [markedNumerals, isNumeralMark, kind]
      · rename_i kind
        exact Stream.numeralsAhead_eq kind
  | close kind | word kind => exact Stream.numeralsAhead_eq kind
  | move kind | skip kind => exact (Stream.numeralsBeyond_advance kind).symm
  | expected => rfl
  | @noExpression stream kind =>
      have unmarked : isNumeralMark ⟨.noExpression, stream.current⟩ = false :=
        isNumeralMark_eq_false kind
      rw [markedNumerals, List.filter_cons_of_neg (by rw [unmarked]; exact Bool.false_ne_true)]
      rfl
  | outOfRange => rfl

/-- Numerals are never skipped.  Where no numeral of a text is too long, the numerals that are
complained of are just those that are too large, each once and in order.  A parse that leaves marks
is the same but for them, and it leaves one at each numeral, in order, where an expression begins;
such an expression is the numeral, read as one, with what extends it. -/
theorem numerals_examined_once (text : String) (short : (Stream.ofText text).Short) :
    ∃ parsed watched, parseText text = .ok parsed ∧
      Issue.oversized parsed.issues =
        (Token.numerals (Token.scan text)).filter Token.isOversized ∧
      (Token.numerals (Token.scan text)).Pairwise
        (fun earlier later => earlier.offset < later.offset) ∧
      (∀ issue ∈ parsed.issues, issue.fault = .outOfRange →
        issue.message = "could not parse \"" ++ issue.token.literal ++ "\" as integer") ∧
      markedParse numeralMark (Stream.ofText text) =
        .ok ⟨parsed.program, watched, parsed.dropped⟩ ∧
      watched.filter (fun issue => !isNumeralMark issue) = parsed.issues ∧
      markedNumerals watched = Token.numerals (Token.scan text) ∧
      ∀ (nested : Nat → Rule Expr) (start : Stream), start.current.kind = .integer →
        operand nested start = integer start := by
  obtain ⟨parsed, parse_eq⟩ := exists_parse_eq short
  obtain ⟨watched, watched_eq, woven⟩ := @exists_markedParse_eq numeralMark _ _ parse_eq
  obtain ⟨last, course, ended, -⟩ := course_of_markedParse watched_eq
  have all_marked := unmarkedNumerals_eq course
  have nothing_left : unmarkedNumerals (.between last) = [] := by
    rw [unmarkedNumerals, Stream.numeralsAhead, ended]
    rfl
  rw [nothing_left, List.append_nil] at all_marked
  have ordered := (tiled_scanFrom 0 text.toList).ordered.1
  refine ⟨parsed, watched, parse_eq, (examined_of_parse parse_eq).1.oversized_eq,
    ordered.sublist List.filter_sublist, ?_, watched_eq, ?_, all_marked.symm, ?_⟩
  · intro issue member fault_eq
    rw [Issue.message, fault_eq]
  · exact woven.filter_eq (fun _ _ => isNumeralMark_of_mem) fun issue member =>
      isNumeralMark_eq_false (warranted_of_parse parse_eq issue member)
  · intro nested start kind
    rw [operand, Rule.bind_current, kind]

/-- A text with three numerals, one of them too large and the others where another token is
expected. -/
theorem numerals_examined_once_sample :
    let text := "let 1; f(9223372036854775808 2"
    (Stream.ofText text).Short ∧
      Token.numerals (Token.scan text) =
        [⟨.integer, "1", 4⟩, ⟨.integer, "9223372036854775808", 9⟩, ⟨.integer, "2", 29⟩] ∧
      ∃ parsed watched, parseText text = .ok parsed ∧
        Issue.oversized parsed.issues = [⟨.integer, "9223372036854775808", 9⟩] ∧
        markedParse numeralMark (Stream.ofText text) =
          .ok ⟨parsed.program, watched, parsed.dropped⟩ ∧
        markedNumerals watched = Token.numerals (Token.scan text) := by
  intro text
  have short : (Stream.ofText text).Short := by
    change ∀ token ∈ Token.scan "let 1; f(9223372036854775808 2", _
    decide +kernel
  have numerals_eq : Token.numerals (Token.scan text) =
      [⟨.integer, "1", 4⟩, ⟨.integer, "9223372036854775808", 9⟩, ⟨.integer, "2", 29⟩] := by
    decide +kernel
  obtain ⟨parsed, watched, parse_eq, oversized_eq, -, -, watched_eq, -, marked_eq, -⟩ :=
    numerals_examined_once text short
  have one_oversized : [⟨.integer, "1", 4⟩, ⟨.integer, "9223372036854775808", 9⟩,
      ⟨.integer, "2", 29⟩].filter Token.isOversized =
        [⟨.integer, "9223372036854775808", 9⟩] := by
    decide +kernel
  rw [numerals_eq, one_oversized] at oversized_eq
  exact ⟨short, numerals_eq, parsed, watched, parse_eq, oversized_eq, watched_eq, marked_eq⟩

/-! ## A numeral that is too long

It ends all parsing as soon as it is met. -/

section

variable {reason : Halt}

theorem bind_of_error {α β : Type} {rule : Rule α} {next : α → Rule β}
    (halts : rule stream = .error reason) : (rule >>= next) stream = .error reason := by
  change Rule.bind rule next stream = .error reason
  rw [Rule.bind, halts]

theorem bind_current_of_error {β : Type} {next : Token → Rule β}
    (halts : next stream.current stream = .error reason) :
    (Rule.current >>= next) stream = .error reason :=
  (Rule.bind_current stream).trans halts

theorem many_of_error {α : Type} {rule : Rule α} {more : Stream → Bool} (go : more stream = true)
    (halts : rule stream = .error reason) : Rule.many more rule stream = .error reason := by
  rw [Rule.many, if_pos go]
  exact bind_of_error halts

theorem statements_of_error {closing : Kind → Bool}
    (open_still : closing stream.current.kind = false)
    (halts : statement nested stream = .error reason) :
    statements nested closing stream = .error reason := by
  have attempted : Rule.attempt (statement nested) stream = .error reason := by
    rw [Rule.attempt, halts]
    rfl
  have more : unclosed closing stream = true := by rw [unclosed, open_still, Bool.not_false]
  exact bind_of_error (many_of_error more (bind_of_error attempted))

end

theorem parse_of_long (kind : stream.current.kind = .integer)
    (long : maxDigits < stream.current.literal.length) :
    parse stream = .error (.numeralTooLong stream.current.literal.length) := by
  have integer_halts :
      integer stream = .error (.numeralTooLong stream.current.literal.length) := by
    refine bind_current_of_error ?_
    rw [if_pos long]
    rfl
  have expression_halts : expression lowest stream =
      .error (.numeralTooLong stream.current.literal.length) := by
    rw [expression_eq]
    refine bind_of_error (bind_current_of_error ?_)
    rw [kind]
    exact integer_halts
  have statement_halts : statement expression stream =
      .error (.numeralTooLong stream.current.literal.length) := by
    refine bind_current_of_error ?_
    rw [kind]
    refine bind_current_of_error (bind_of_error ?_)
    rw [Rule.passing, expression_halts]
    rfl
  have program_halts : program stream =
      .error (.numeralTooLong stream.current.literal.length) :=
    bind_of_error (statements_of_error (by rw [kind]; rfl) statement_halts)
  rw [parse, program_halts]
  rfl

/-- A text that is nothing but ones is read as one numeral. -/
theorem tokens_ofText_of_ones {count : Nat} (pos : 0 < count) :
    let text := String.ofList (List.replicate count '1')
    (Stream.ofText text).tokens = [⟨.integer, text, 0⟩] := by
  intro text
  obtain ⟨more, rfl⟩ := Nat.exists_eq_succ_of_ne_zero pos.ne'
  have taken : Pattern.Matches .numeral ('1' :: List.replicate more '1') := by
    refine .numeral nofun fun c member => ?_
    rw [List.eq_of_mem_replicate (n := more + 1) member]
    decide
  have longest : Pattern.Longest .numeral ('1' :: List.replicate more '1') [] :=
    Pattern.longest_of_next (by decide) taken nofun
  have tiled : Tiled 0 text.toList [⟨.integer, text, 0⟩] := by
    rw [String.toList_ofList, ← List.append_nil (List.replicate _ _)]
    exact .lexeme longest .integer .nil
  exact tiled.eq_scanFrom.symm

theorem lt_value_of_ones {count : Nat} (long : maxDigits < count) :
    maxInteger < Decimal.value (String.ofList (List.replicate count '1')) := by
  -- Every digit at least doubles the number read before it.
  have doubles : ∀ (count before : Nat),
      2 ^ count * (before + 1) ≤ Nat.ofDigitChars 10 (List.replicate count '1') before + 1 := by
    intro count
    induction count with
    | zero => simp
    | succ count ih =>
        intro before
        have digit := ih (10 * before + 1)
        have shift : 2 ^ count * (2 * (before + 1)) ≤ 2 ^ count * (10 * before + 1 + 1) :=
          Nat.mul_le_mul_left _ (by omega)
        rw [Nat.pow_succ, Nat.mul_assoc]
        exact shift.trans digit
  have large := doubles count 0
  have enough : 2 ^ 64 ≤ 2 ^ count :=
    Nat.pow_le_pow_right Nat.two_pos ((show 64 ≤ maxDigits by decide).trans long.le)
  rw [Decimal.value, String.toList_ofList]
  rw [Nat.zero_add, Nat.mul_one] at large
  have bound : maxInteger + 1 < 2 ^ 64 := by decide
  omega

theorem parseText_of_long_ones {count : Nat} (long : maxDigits < count) :
    parseText (String.ofList (List.replicate count '1')) = .error (.numeralTooLong count) := by
  have current_eq := Stream.current_eq (tokens_ofText_of_ones (Nat.zero_lt_of_lt long))
  have length_eq : (String.ofList (List.replicate count '1')).length = count := by
    rw [String.length_ofList, List.length_replicate]
  rw [parseText, parse_of_long (by rw [current_eq]) (by rwa [current_eq, length_eq]), current_eq,
    length_eq]

/-- A text that is nothing but a numeral of 4301 ones. -/
theorem parseText_of_ones :
    let text := String.ofList (List.replicate 4301 '1')
    (Stream.ofText text).tokens = [⟨.integer, text, 0⟩] ∧
      maxInteger < Decimal.value text ∧ parseText text = .error (.numeralTooLong 4301) :=
  ⟨tokens_ofText_of_ones (by decide), lt_value_of_ones (by decide),
    parseText_of_long_ones (by decide)⟩

end Grammar
end MarmosetLang
