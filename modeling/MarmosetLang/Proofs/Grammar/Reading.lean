import MarmosetLang.Grammar.Program

/-!
# Clean reading

A rule reads a construct if it succeeds without an issue and gives up no statement on the way.  What
a rule put together from steps reads is said step by step, and none of the steps has to be looked at
again.
-/

namespace MarmosetLang
namespace Rule

/-- A rule reads a construct off a stream, finds no fault in it, and leaves another stream. -/
def Reads {α : Type} (rule : Rule α) (before : Stream) (construct : α) (after : Stream) : Prop :=
  rule before = .ok ⟨some construct, after, [], 0⟩

variable {α β : Type} {before after : Stream}

/-! ## Steps -/

@[simp]
theorem reads_pure {value construct : α} :
    Reads (pure value) before construct after ↔ construct = value ∧ after = before := by
  change Except.ok _ = Except.ok _ ↔ _
  simp only [Except.ok.injEq, Reply.mk.injEq, Option.some.injEq, and_true]
  exact and_congr eq_comm eq_comm

/-- Nothing is found after a clean reading that was found before it. -/
theorem map_followedBy_eq_clean_iff {earlier : Reply α} {answer : Except Halt (Reply β)}
    {construct : β} :
    answer.map (Reply.followedBy earlier) = .ok ⟨some construct, after, [], 0⟩ ↔
      (earlier.issues = [] ∧ earlier.dropped = 0) ∧
        answer = .ok ⟨some construct, after, [], 0⟩ := by
  rcases answer with halt | ⟨result, rest, issues, dropped⟩
  · simp [Except.map]
  · simp only [Except.map, Reply.followedBy, Except.ok.injEq, Reply.mk.injEq,
      List.append_eq_nil_iff, Nat.add_eq_zero_iff]
    constructor
    · rintro ⟨found, left, ⟨noIssue, noOther⟩, noDrop, noMore⟩
      exact ⟨⟨noIssue, noDrop⟩, found, left, noOther, noMore⟩
    · rintro ⟨⟨noIssue, noDrop⟩, found, left, noOther, noMore⟩
      exact ⟨found, left, ⟨noIssue, noOther⟩, noDrop, noMore⟩

@[simp]
theorem reads_bind {rule : Rule α} {next : α → Rule β} {construct : β} :
    Reads (rule >>= next) before construct after ↔
      ∃ value middle, rule.Reads before value middle ∧
        (next value).Reads middle construct after := by
  change Rule.bind rule next before = _ ↔ _
  unfold Rule.bind Reads
  rcases rule before with halt | ⟨_ | value, middle, issues, dropped⟩
  · simp
  · simp
  · simp only [map_followedBy_eq_clean_iff, Except.ok.injEq, Reply.mk.injEq, Option.some.injEq]
    constructor
    · rintro ⟨⟨rfl, rfl⟩, later⟩
      exact ⟨value, middle, ⟨rfl, rfl, rfl, rfl⟩, later⟩
    · rintro ⟨_, _, ⟨rfl, rfl, rfl, rfl⟩, later⟩
      exact ⟨⟨rfl, rfl⟩, later⟩

/-- After a clean reading there is nothing to be added to what is found next. -/
theorem bind_of_reads {rule : Rule α} {next : α → Rule β} {value : α} {middle : Stream}
    (read : rule.Reads before value middle) : Rule.bind rule next before = next value middle := by
  rw [Rule.bind, read]
  change (next value middle).map _ = _
  rcases next value middle with reason | ⟨result, rest, issues, dropped⟩
  · rfl
  · simp [Except.map, Reply.followedBy]

@[simp]
theorem reads_current {token : Token} :
    current.Reads before token after ↔ token = before.current ∧ after = before :=
  reads_pure

theorem bind_current {next : Token → Rule β} (before : Stream) :
    (current >>= next) before = next before.current before :=
  bind_of_reads (reads_current.mpr ⟨rfl, rfl⟩)

@[simp]
theorem reads_peek {token : Token} :
    peek.Reads before token after ↔ token = before.peek ∧ after = before :=
  reads_pure

@[simp]
theorem reads_advance {moved : Unit} :
    advance.Reads before moved after ↔ after = before.advance := by
  simp only [Reads, advance, Except.ok.injEq, Reply.mk.injEq, and_true, true_and]
  exact eq_comm

@[simp]
theorem not_reads_halt {reason : Halt} {construct : α} :
    ¬ (halt reason).Reads before construct after := by
  simp [Reads, halt]

@[simp]
theorem not_reads_complain {fault : Fault} {token : Token} {construct : α} :
    ¬ (complain fault token).Reads before construct after := by
  simp [Reads, complain]

@[simp]
theorem reads_ite {condition : Prop} [Decidable condition] {rule other : Rule α} {construct : α} :
    Reads (if condition then rule else other) before construct after ↔
      if condition then rule.Reads before construct after
      else other.Reads before construct after := by
  split <;> rfl

@[simp]
theorem reads_expect {kind : Kind} {token : Token} :
    (expect kind).Reads before token after ↔
      before.peek.kind = kind ∧ token = before.peek ∧ after = before.advance := by
  by_cases same : before.peek.kind = kind <;> simp [expect, same, and_assoc]

theorem reads_passing {kind : Kind} {rule : Rule α} {construct : α} :
    (passing kind rule).Reads before construct after ↔
      ∃ middle, rule.Reads before construct middle ∧
        after = if middle.peek.kind = kind then middle.advance else middle := by
  simp only [passing, Reads]
  rcases rule before with halt | ⟨result, middle, issues, dropped⟩
  · simp [Except.map]
  · simp only [Except.map, Except.ok.injEq, Reply.mk.injEq]
    constructor
    · intro read
      refine ⟨middle, ?_⟩
      split at read
      · rename_i same
        obtain ⟨rfl, rfl, rfl, rfl⟩ := read
        exact ⟨⟨rfl, rfl, rfl, rfl⟩, (if_pos same).symm⟩
      · rename_i differs
        obtain ⟨rfl, rfl, rfl, rfl⟩ := read
        exact ⟨⟨rfl, rfl, rfl, rfl⟩, (if_neg differs).symm⟩
    · rintro ⟨_, ⟨rfl, rfl, rfl, rfl⟩, rfl⟩
      split <;> rfl

theorem reads_attempt {rule : Rule α} {found : Option α} :
    (attempt rule).Reads before found after ↔
      ∃ construct, found = some construct ∧ rule.Reads before construct after := by
  simp only [attempt, Reads]
  rcases rule before with halt | ⟨_ | value, middle, issues, dropped⟩
  · simp [Except.map]
  · simp [Except.map]
  · simp only [Except.map, Except.ok.injEq, Reply.mk.injEq, Option.some.injEq]
    constructor
    · rintro ⟨rfl, rfl, rfl, rfl⟩
      exact ⟨value, rfl, rfl, rfl, rfl, rfl⟩
    · rintro ⟨_, rfl, rfl, rfl, rfl, rfl⟩
      exact ⟨rfl, rfl, rfl, rfl⟩

theorem reads_map {change : α → β} {rule : Rule α} {construct : β} :
    Reads (fun stream => (rule stream).map (Reply.map change)) before construct after ↔
      ∃ value, construct = change value ∧ rule.Reads before value after := by
  simp only [Reads]
  rcases rule before with halt | ⟨_ | value, middle, issues, dropped⟩
  · simp [Except.map]
  · simp [Except.map, Reply.map]
  · simp only [Except.map, Reply.map, Option.map_some, Except.ok.injEq, Reply.mk.injEq,
      Option.some.injEq]
    constructor
    · rintro ⟨rfl, rfl, rfl, rfl⟩
      exact ⟨value, rfl, rfl, rfl, rfl, rfl⟩
    · rintro ⟨_, rfl, rfl, rfl, rfl, rfl⟩
      exact ⟨rfl, rfl, rfl, rfl⟩

/-- A rule that may start only on few enough tokens. -/
theorem reads_guarded {bound : Nat} {rule : Rule α} {construct : α} :
    Reads (fun stream => if stream.length < bound then rule stream else .error .stuck)
        before construct after ↔
      before.length < bound ∧ rule.Reads before construct after := by
  simp only [Reads]
  split
  · rename_i few
    exact (and_iff_right few).symm
  · rename_i many
    exact iff_of_false nofun fun read => many read.1

/-! ## Loops -/

section Many

variable {more : Stream → Bool} {rule : Rule α} {constructs : List α}

theorem reads_many_of_not (stop : more before = false) :
    Reads (many more rule) before constructs after ↔ constructs = [] ∧ after = before := by
  unfold Reads
  rw [many, if_neg (by simp [stop])]
  simp only [Except.ok.injEq, Reply.mk.injEq, Option.some.injEq, and_true]
  exact and_congr eq_comm eq_comm

theorem reads_many_of (go : more before = true) :
    Reads (many more rule) before constructs after ↔
      ∃ first middle, rule.Reads before first middle ∧ middle.length < before.length ∧
        ∃ others, constructs = first :: others ∧
          Reads (many more rule) middle others after := by
  unfold Reads
  rw [many, if_pos go]
  refine Iff.trans reads_bind ?_
  refine exists_congr fun first => exists_congr fun middle => and_congr_right fun _ => ?_
  exact reads_guarded.trans (and_congr_right fun _ => reads_map)

/-- What a loop reads is gathered from what its rule reads, step by step. -/
theorem Reads.many_induction {motive : Stream → List α → Stream → Prop}
    (stop : ∀ stream, more stream = false → motive stream [] stream)
    (step : ∀ stream first middle others final, more stream = true →
      rule.Reads stream first middle → motive middle others final →
        motive stream (first :: others) final)
    (read : Reads (many more rule) before constructs after) :
    motive before constructs after := by
  induction before using many.induct more generalizing constructs with
  | case1 before go ih =>
      obtain ⟨first, middle, read_first, shorter, others, rfl, read_others⟩ :=
        (reads_many_of go).mp read
      exact step _ _ _ _ _ go read_first (ih middle shorter read_others)
  | case2 before not_more =>
      have stopped := eq_false_of_ne_true not_more
      obtain ⟨rfl, rfl⟩ := (reads_many_of_not stopped).mp read
      exact stop after stopped

end Many

section FoldWhile

variable {more : Stream → Bool} {rule : α → Rule α} {value construct : α}

theorem reads_foldWhile_of_not (stop : more before = false) :
    Reads (foldWhile more rule value) before construct after ↔
      construct = value ∧ after = before := by
  unfold Reads
  rw [foldWhile, if_neg (by simp [stop])]
  simp only [Except.ok.injEq, Reply.mk.injEq, Option.some.injEq, and_true]
  exact and_congr eq_comm eq_comm

theorem reads_foldWhile_of (go : more before = true) :
    Reads (foldWhile more rule value) before construct after ↔
      ∃ next middle, (rule value).Reads before next middle ∧ middle.length < before.length ∧
        Reads (foldWhile more rule next) middle construct after := by
  unfold Reads
  rw [foldWhile, if_pos go]
  refine Iff.trans reads_bind ?_
  exact exists_congr fun next => exists_congr fun middle => and_congr_right fun _ => reads_guarded

/-- What every step of a loop keeps holds at its end, where the loop stops. -/
theorem Reads.foldWhile_induction {motive : α → Stream → Prop}
    (step : ∀ value stream next middle, more stream = true → (rule value).Reads stream next middle →
      motive value stream → motive next middle)
    (start : motive value before)
    (read : Reads (foldWhile more rule value) before construct after) :
    motive construct after ∧ more after = false := by
  induction value, before using foldWhile.induct more with
  | case1 value before go ih =>
      obtain ⟨next, middle, read_next, shorter, read_rest⟩ := (reads_foldWhile_of go).mp read
      exact ih next middle shorter (step _ _ _ _ go read_next start) read_rest
  | case2 value before not_more =>
      have stopped := eq_false_of_ne_true not_more
      obtain ⟨rfl, rfl⟩ := (reads_foldWhile_of_not stopped).mp read
      exact ⟨start, stopped⟩

end FoldWhile

end Rule
end MarmosetLang
