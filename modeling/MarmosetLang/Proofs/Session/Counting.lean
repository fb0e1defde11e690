import MarmosetLang.Proofs.Session.Dialogue

/-!
# The limit of a report

Problems are counted one by one, and work is broken off by the one that makes their number just the
limit.  From then on there are as many as the limit says or more, so that it does not happen again
until they are forgotten.  This holds however the steps of a session are mixed, and whatever has
broken off the ones before.
-/

namespace MarmosetLang

/-- Whether work has been broken off for the number of problems. -/
def isTooMany {α : Type} : Except Interruption α → Bool
  | .error .tooManyIssues => true
  | _ => false

theorem isTooMany_error (α β : Type) (reason : Interruption) :
    isTooMany (.error reason : Except _ α) = isTooMany (.error reason : Except _ β) := by
  cases reason <;> rfl

namespace Report

/-! ## Adding problems -/

/-- Problems have been added to a report one by one, and then work has been broken off for their
number, or not. -/
structure Advances (earlier : Report) (broken : Bool) (later : Report) (added : List Picture) :
    Prop where
  /-- They are kept in order. -/
  pictures_eq : later.pictures = earlier.pictures ++ added
  /-- The limit stays. -/
  limit_eq : later.limit = earlier.limit
  /-- Work is broken off by the one that reaches the limit, so that it is the last one. -/
  reachesAt_iff : ∀ count, 0 < count → count ≤ added.length →
    (earlier.ReachesAt count ↔ broken = true ∧ count = added.length)
  /-- Nothing else breaks work off for the number of problems. -/
  added_of_broken : broken = true → added ≠ []

/-- Whether there are as many problems as the limit says, or more. -/
def isFull (report : Report) : Bool :=
  match report.limit with
  | none => false
  | some limit => decide (0 < limit) && decide (limit ≤ report.pictures.length)

theorem isFull_iff {report : Report} :
    report.isFull = true ↔
      ∃ limit : Nat, report.limit = some (limit : Int) ∧ 0 < limit ∧
        limit ≤ report.pictures.length := by
  rw [isFull]
  cases report.limit with
  | none => simp
  | some limit =>
      rw [Bool.and_eq_true, decide_eq_true_iff, decide_eq_true_iff]
      constructor
      · rintro ⟨positive, le⟩
        exact ⟨limit.toNat, congrArg some (by omega), by omega, by omega⟩
      · rintro ⟨size, size_eq, positive, le⟩
        obtain rfl := Option.some.inj size_eq
        omega

namespace Advances

variable {earlier middle later : Report} {broken : Bool} {added more : List Picture}

theorem still (pictures_eq : later.pictures = earlier.pictures)
    (limit_eq : later.limit = earlier.limit) : earlier.Advances false later [] where
  pictures_eq := by rw [pictures_eq, List.append_nil]
  limit_eq := limit_eq
  reachesAt_iff _ positive le := absurd positive (Nat.not_lt_of_le le)
  added_of_broken := nofun

/-- Problems are added up to the one that reaches the limit. -/
theorem of_reachesAt {count : Nat} (reaches : earlier.ReachesAt count) (positive : 0 < count)
    (le : count ≤ added.length) :
    earlier.Advances true (earlier.adding (added.take count)) (added.take count) where
  pictures_eq := rfl
  limit_eq := rfl
  reachesAt_iff other _ _ := by
    have length_eq : (added.take count).length = count := List.length_take_of_le le
    rw [length_eq, ReachesAt, reaches, Option.some.injEq, eq_self_iff_true, true_and]
    omega
  added_of_broken _ := by
    refine List.ne_nil_of_length_pos ?_
    rwa [List.length_take_of_le le]

/-- Problems of which none reaches the limit are all added. -/
theorem of_apart
    (apart : ∀ count, 0 < count → count ≤ added.length → ¬earlier.ReachesAt count) :
    earlier.Advances false (earlier.adding added) added where
  pictures_eq := rfl
  limit_eq := rfl
  reachesAt_iff count positive le := by
    refine iff_of_false (apart count positive le) ?_
    rintro ⟨⟨⟩, -⟩
  added_of_broken := nofun

theorem trans (first : earlier.Advances false middle added)
    (second : middle.Advances broken later more) :
    earlier.Advances broken later (added ++ more) where
  pictures_eq := by rw [second.pictures_eq, first.pictures_eq, List.append_assoc]
  limit_eq := second.limit_eq.trans first.limit_eq
  reachesAt_iff count positive le := by
    rw [List.length_append] at le ⊢
    by_cases within : count ≤ added.length
    · -- The first problems do not break work off, so the limit is none of theirs.
      rw [first.reachesAt_iff count positive within]
      constructor
      · rintro ⟨⟨⟩, -⟩
      · rintro ⟨broken_eq, count_eq⟩
        have more_pos := List.length_pos_of_ne_nil (second.added_of_broken broken_eq)
        omega
    · have moved : earlier.ReachesAt count ↔ middle.ReachesAt (count - added.length) := by
        have count_eq : added.length + (count - added.length) = count := by omega
        rw [ReachesAt, ReachesAt, first.limit_eq, first.pictures_eq, List.length_append,
          Nat.add_assoc, count_eq]
      rw [moved, second.reachesAt_iff _ (by omega) (by omega)]
      exact and_congr_right fun _ => by omega
  added_of_broken broken_eq := by
    have more_ne := second.added_of_broken broken_eq
    exact fun both => more_ne (List.append_eq_nil_iff.mp both).2

theorem isFull_mono (advances : earlier.Advances broken later added)
    (full : earlier.isFull = true) : later.isFull = true := by
  rw [isFull_iff] at full ⊢
  obtain ⟨limit, limit_eq, positive, le⟩ := full
  refine ⟨limit, advances.limit_eq.trans limit_eq, positive, ?_⟩
  rw [advances.pictures_eq, List.length_append]
  omega

/-- Work is broken off just when the report becomes full. -/
theorem broken_iff (advances : earlier.Advances broken later added) :
    broken = true ↔ ¬earlier.isFull = true ∧ later.isFull = true := by
  rw [isFull_iff, isFull_iff, advances.limit_eq, advances.pictures_eq, List.length_append]
  constructor
  · intro broken_eq
    have added_pos := List.length_pos_of_ne_nil (advances.added_of_broken broken_eq)
    have reaches : earlier.ReachesAt added.length :=
      (advances.reachesAt_iff _ added_pos (Nat.le_refl _)).mpr ⟨broken_eq, rfl⟩
    constructor
    · rintro ⟨limit, limit_eq, -, le⟩
      rw [ReachesAt, limit_eq, Option.some.injEq] at reaches
      omega
    · exact ⟨_, reaches, by omega, Nat.le_refl _⟩
  · rintro ⟨not_full, limit, limit_eq, positive, le⟩
    have above : earlier.pictures.length < limit := by
      by_contra below
      exact not_full ⟨limit, limit_eq, positive, Nat.le_of_not_lt below⟩
    have reaches : earlier.ReachesAt (limit - earlier.pictures.length) := by
      rw [ReachesAt, limit_eq, Nat.add_sub_cancel' (Nat.le_of_lt above)]
    exact ((advances.reachesAt_iff _ (by omega) (by omega)).mp reaches).1

theorem toNat_isFull (advances : earlier.Advances broken later added) :
    later.isFull.toNat = earlier.isFull.toNat + broken.toNat := by
  by_cases full : earlier.isFull = true
  · have whole : broken = false := by
      rw [Bool.eq_false_iff, Ne, advances.broken_iff]
      exact fun becomes_full => becomes_full.1 full
    rw [full, advances.isFull_mono full, whole]
    rfl
  · have same : broken = later.isFull := by
      rw [Bool.eq_iff_iff, advances.broken_iff]
      exact and_iff_right full
    rw [Bool.eq_false_iff.mpr full, same]
    exact (Nat.zero_add _).symm

end Advances

/-! ## The problems of texts -/

/-- The problems among these that a report takes: those up to the one that reaches the limit, or all
of them if none does. -/
def admitted (pictures : List Picture) (report : Report) : List Picture :=
  match report.limit with
  | none => pictures
  | some limit =>
      if (report.pictures.length : Int) < limit then
        pictures.take (limit - report.pictures.length).toNat
      else
        pictures

theorem admitted_of_reachesAt {report : Report} {count : Nat} (reaches : report.ReachesAt count)
    (positive : 0 < count) (pictures : List Picture) :
    report.admitted pictures = pictures.take count := by
  have above : (report.pictures.length : Int) < (report.pictures.length + count : Nat) := by omega
  have count_eq :
      (((report.pictures.length + count : Nat) : Int) - report.pictures.length).toNat = count := by
    omega
  rw [admitted, reaches]
  dsimp only
  rw [if_pos above, count_eq]

theorem admitted_of_apart {report : Report} {pictures : List Picture}
    (apart : ∀ count, 0 < count → count ≤ pictures.length → ¬report.ReachesAt count) :
    report.admitted pictures = pictures := by
  rw [admitted]
  cases limit_eq : report.limit with
  | none => rfl
  | some limit =>
      dsimp only
      split
      · rename_i above
        refine List.take_of_length_le (Nat.le_of_not_lt fun within => ?_)
        apply apart (limit - report.pictures.length).toNat (by omega) (Nat.le_of_lt within)
        rw [ReachesAt, limit_eq, Option.some.injEq]
        omega
      · rfl

/-- The problems that are added when a text is parsed: its issues, up to the one that reaches the
limit.  There is none where a numeral is too long to be read. -/
def problemsIn (source : String) (path : Option PathName) (report : Report) : List Picture :=
  match Grammar.parseText source with
  | .error _ => []
  | .ok parsed => report.admitted (parsed.issues.map (pictureOf source path))

/-- Parsing a text with issues is broken off by the one that reaches the limit, or else it gives no
program. -/
theorem parse_cases {source : String} {parsed : Parsed}
    (parse_eq : Grammar.parseText source = .ok parsed) (faulty : parsed.issues ≠ [])
    (path : Option PathName) (report : Report) :
    let pictures := report.problemsIn source path
    (parse source path report = (.error .tooManyIssues, report.adding pictures) ∧
      report.Advances true (report.adding pictures) pictures) ∨
    (parse source path report = (.ok none, report.adding pictures) ∧
      report.Advances false (report.adding pictures) pictures) := by
  have length_eq : (parsed.issues.map (pictureOf source path)).length = parsed.issues.length :=
    List.length_map _
  rw [problemsIn, parse_eq]
  dsimp only
  by_cases reaches : ∃ count, 0 < count ∧ count ≤ parsed.issues.length ∧ report.ReachesAt count
  · obtain ⟨count, positive, le, reaches⟩ := reaches
    rw [admitted_of_reachesAt reaches positive]
    exact .inl ⟨parse_of_reachesAt parse_eq reaches positive le path,
      .of_reachesAt reaches positive (length_eq ▸ le)⟩
  · have apart (count : Nat) (positive : 0 < count) (le : count ≤ parsed.issues.length) :
        ¬report.ReachesAt count := fun reached => reaches ⟨count, positive, le, reached⟩
    have all_apart := length_eq ▸ apart
    rw [admitted_of_apart all_apart]
    exact .inr ⟨parse_of_apart parse_eq faulty apart path, .of_apart all_apart⟩

end Report

/-! ## Work that counts problems -/

/-- What work does to a report is adding these problems one by one, and it is broken off for their
number by the one that reaches the limit. -/
def Counts {σ α : Type} (view : σ → Report) (work : ExceptT Interruption (StateM σ) α)
    (added : σ → List Picture) : Prop :=
  ∀ state, (view state).Advances (isTooMany (work state).1) (view (work state).2) (added state)

namespace Session

/-- The problems that are added when a text is run: its issues, or else the one that its run comes
to. -/
def problemsIn (source : String) (path : Option PathName) (session : Session) : List Picture :=
  match Grammar.parseText source with
  | .error _ => []
  | .ok parsed =>
      if parsed.issues.isEmpty then
        problemsOf (Evaluation.run session.scope parsed.program session.store).1
      else
        session.report.problemsIn source path

end Session

namespace Counts

variable {σ α β : Type} {view : σ → Report} {added : σ → List Picture}

theorem pure (value : α) : Counts view (Pure.pure value) fun _ => [] :=
  fun _ => .still rfl rfl

theorem bind_pure {work : ExceptT Interruption (StateM σ) α} (counts : Counts view work added)
    (answer : α → β) : Counts view (work >>= fun value => Pure.pure (answer value)) added := by
  intro state
  have advances := counts state
  cases ran : work state with
  | mk ending middle =>
      rw [ran] at advances
      cases ending with
      | error reason =>
          rw [bind_of_error ran, isTooMany_error β α]
          exact advances
      | ok value =>
          rw [bind_of_ok ran]
          exact advances

theorem add (picture : Picture) : Counts id (Report.add picture) fun _ => [picture] := by
  intro report
  by_cases reaches : report.ReachesAt 1
  · rw [Report.add_of_reachesAt reaches]
    have whole : 1 ≤ [picture].length := Nat.le_refl 1
    exact .of_reachesAt reaches Nat.one_pos whole
  · rw [Report.add_of_not_reachesAt reaches]
    refine .of_apart fun count positive le => ?_
    rwa [Nat.le_antisymm le positive]

theorem parse (source : String) (path : Option PathName) :
    Counts id (Report.parse source path) (Report.problemsIn source path) := by
  intro report
  cases parse_eq : Grammar.parseText source with
  | error halt =>
      rw [Report.parse, Report.problemsIn, parse_eq]
      exact .still rfl rfl
  | ok parsed =>
      by_cases clean : parsed.issues = []
      · have none_there : report.problemsIn source path = [] := by
          rw [Report.problemsIn, parse_eq]
          dsimp only
          rw [clean, List.map_nil]
          exact Report.admitted_of_apart fun count positive le =>
            absurd positive (Nat.not_lt_of_le le)
        rw [Report.parse_of_clean parse_eq clean, Report.noting_eq_said, none_there]
        exact .still rfl rfl
      · obtain ⟨parse_eq, advances⟩ | ⟨parse_eq, advances⟩ :=
          Report.parse_cases parse_eq clean path report
        · rw [parse_eq]
          exact advances
        · rw [parse_eq]
          exact advances

theorem complain : Counts id Report.complain fun _ => [] := by
  intro report
  rw [Report.complain_eq]
  exact .still rfl rfl

theorem requireClear (message : String) :
    Counts id (Report.requireClear message) fun _ => [] := by
  intro report
  rw [Report.requireClear_eq]
  split
  · exact .still rfl rfl
  · exact .still rfl rfl

theorem onReport {work : Reporting α} {added : Report → List Picture}
    (counts : Counts id work added) :
    Counts Session.report (Session.onReport work) fun session => added session.report :=
  fun session => counts session.report

theorem conclude (outcome : Outcome (Option Value)) :
    Counts Session.report (Session.conclude outcome) fun _ => Session.problemsOf outcome := by
  obtain ⟨none_eq, conclude_eq⟩ | ⟨picture, some_eq, conclude_eq⟩ := Session.conclude_cases outcome
  · rw [none_eq, conclude_eq]
    exact .pure _
  · rw [some_eq, conclude_eq]
    exact (add picture).onReport.bind_pure fun _ => _

/-- Evaluation does nothing to a report, but the end of it may. -/
theorem execute (text : Program) :
    Counts Session.report (Session.execute text) fun session =>
      Session.problemsOf (Evaluation.run session.scope text session.store).1 := by
  intro session
  rw [Session.execute_eq]
  exact conclude _ { session with store := (Evaluation.run session.scope text session.store).2 }

theorem runText (source : String) (path : Option PathName) :
    Counts Session.report (Session.runText source path) (Session.problemsIn source path) := by
  intro session
  rw [Session.problemsIn]
  cases parse_eq : Grammar.parseText source with
  | error halt =>
      have broken : Report.parse source path session.report =
          (.error (.unreadable halt), session.report) := by
        rw [Report.parse, parse_eq]
        rfl
      rw [Session.runText_of_broken broken]
      exact .still rfl rfl
  | ok parsed =>
      dsimp only
      by_cases clean : parsed.issues = []
      · have no_issues : parsed.issues.isEmpty = true := List.isEmpty_iff.mpr clean
        have noted : session.report.Advances false (session.report.noting parsed.program) [] := by
          rw [Report.noting_eq_said]
          exact .still rfl rfl
        rw [Session.runText_of_clean parse_eq clean, if_pos no_issues]
        exact noted.trans (execute parsed.program
          { session with report := session.report.noting parsed.program })
      · have some_issues : ¬parsed.issues.isEmpty = true := by rwa [List.isEmpty_iff]
        rw [if_neg some_issues]
        obtain ⟨parse_eq, advances⟩ | ⟨parse_eq, advances⟩ :=
          Report.parse_cases parse_eq clean path session.report
        · rw [Session.runText_of_broken parse_eq]
          exact advances
        · rw [Session.runText_of_none parse_eq]
          exact advances

end Counts

namespace Session

/-! ## Steps of a session -/

/-- What may be done in a session and to its report. -/
inductive Step where
  /-- A text is run. -/
  | run (source : String) (path : Option PathName)
  /-- A text is parsed. -/
  | check (source : String) (path : Option PathName)
  /-- A mistake is reported. -/
  | mistake (message : String)
  /-- A file is reported missing. -/
  | missing (path : PathName)
  /-- All problems are written down. -/
  | complain
  /-- There must be no problem. -/
  | requireClear (message : String)
  /-- All problems are forgotten. -/
  | reset
  /-- Work goes on in another session that has the same report. -/
  | enter (store : Store) (scope : ScopeId)

namespace Step

/-- Carry out a step. -/
def work : Step → Working Unit
  | run source path => do
      let _ ← runText source path
      return ()
  | check source path => do
      let _ ← onReport (Report.parse source path)
      return ()
  | mistake message => onReport (Report.addMistake message)
  | missing path => onReport (Report.addMissing path)
  | complain => onReport Report.complain
  | requireClear message => onReport (Report.requireClear message)
  | reset => onReport Report.reset
  | enter store scope => modify fun session => { session with store := store, scope := scope }

/-- The problems that a step adds. -/
def added : Step → Session → List Picture
  | run source path, session => session.problemsIn source path
  | check source path, session => session.report.problemsIn source path
  | mistake message, _ => [⟨"ERROR: " ++ message, [], []⟩]
  | missing path, _ => [⟨"I see no file called " ++ path.render, [], []⟩]
  | complain, _ | requireClear _, _ | reset, _ | enter _ _, _ => []

theorem counts_work {step : Step} (keeps : step ≠ reset) :
    Counts Session.report step.work step.added := by
  cases step with
  | run source path => exact (Counts.runText source path).bind_pure fun _ => ()
  | check source path => exact (Counts.parse source path).onReport.bind_pure fun _ => ()
  | mistake message => exact (Counts.add _).onReport
  | missing path => exact (Counts.add _).onReport
  | complain => exact Counts.complain.onReport
  | requireClear message => exact (Counts.requireClear message).onReport
  | reset => exact absurd rfl keeps
  | enter store scope => exact fun _ => .still rfl rfl

theorem work_reset (session : Session) :
    reset.work session =
      (.ok (), { session with report := { session.report with pictures := [] } }) := rfl

theorem limit_work (step : Step) (session : Session) :
    (step.work session).2.report.limit = session.report.limit := by
  by_cases resets : step = reset
  · rw [resets, work_reset]
  · exact (counts_work resets session).limit_eq

/-- How steps end one after the other, whatever has broken off the ones before, and the session that
they lead to. -/
def carryOut : List Step → Session → List (Except Interruption Unit) × Session
  | [], session => ([], session)
  | step :: others, session =>
      let (ending, middle) := step.work session
      let (endings, later) := carryOut others middle
      (ending :: endings, later)

theorem carryOut_cons (step : Step) (others : List Step) (session : Session) :
    carryOut (step :: others) session =
      ((step.work session).1 :: (carryOut others (step.work session).2).1,
        (carryOut others (step.work session).2).2) := rfl

/-- The problems that steps add one after the other. -/
def addedAlong : List Step → Session → List Picture
  | [], _ => []
  | step :: others, session => step.added session ++ addedAlong others (step.work session).2

/-- Until problems are forgotten, all of them are kept in order, and work is broken off for their
number just when the report becomes full. -/
theorem carryOut_counts {steps : List Step} (keep : reset ∉ steps) (session : Session) :
    (carryOut steps session).2.report.pictures =
        session.report.pictures ++ addedAlong steps session ∧
      (carryOut steps session).2.report.isFull.toNat =
        session.report.isFull.toNat + (carryOut steps session).1.countP isTooMany := by
  induction steps generalizing session with
  | nil => exact ⟨(List.append_nil _).symm, rfl⟩
  | cons step others ih =>
      rw [List.mem_cons, not_or] at keep
      obtain ⟨differs, others_keep⟩ := keep
      have advances := counts_work (Ne.symm differs) session
      obtain ⟨kept, count_eq⟩ := ih others_keep (step.work session).2
      have first_eq := advances.toNat_isFull
      constructor
      · rw [carryOut_cons, kept, advances.pictures_eq, addedAlong, List.append_assoc]
      · have counted : (if isTooMany (step.work session).1 = true then 1 else 0) =
            (isTooMany (step.work session).1).toNat := by
          cases isTooMany (step.work session).1 <;> rfl
        rw [carryOut_cons, List.countP_cons, count_eq, first_eq, counted]
        omega

theorem isTooMany_of_limit_lt_one {steps : List Step} {session : Session}
    (small : ∀ limit, session.report.limit = some limit → limit < 1)
    {ending : Except Interruption Unit} (member : ending ∈ (carryOut steps session).1) :
    isTooMany ending = false := by
  induction steps generalizing session with
  | nil => cases member
  | cons step others ih =>
      have still_small : ∀ limit, (step.work session).2.report.limit = some limit → limit < 1 := by
        rw [limit_work]
        exact small
      rw [carryOut_cons] at member
      obtain rfl | later := List.mem_cons.mp member
      · by_cases resets : step = reset
        · rw [resets, work_reset]
          rfl
        · have advances := counts_work resets session
          have never_full : ¬(step.work session).2.report.isFull = true := by
            rw [Report.isFull_iff]
            rintro ⟨limit, limit_eq, positive, -⟩
            have limit_small := still_small limit limit_eq
            omega
          rw [Bool.eq_false_iff, Ne, advances.broken_iff]
          exact fun full => never_full full.2
      · exact ih still_small later

end Step

/-- Nothing is run of a text with issues.  They are reported up to the one that reaches the limit,
which breaks work off, or all of them if none does. -/
theorem text_of_issues {source : String} {parsed : Parsed}
    (parse_eq : Grammar.parseText source = .ok parsed) (faulty : parsed.issues ≠ [])
    (path : Option PathName) (session : Session) :
    let pictures := parsed.issues.map (Report.pictureOf source path)
    let held := session.report.pictures.length
    (∀ limit : Nat, session.report.limit = some (limit : Int) → held < limit →
      limit ≤ held + pictures.length →
      Report.parse source path session.report =
        (.error .tooManyIssues,
          session.report.adding (pictures.take (min pictures.length (limit - held)))) ∧
      runText source path session =
        (.error .tooManyIssues,
          session.adding (pictures.take (min pictures.length (limit - held))))) ∧
    ((∀ limit : Nat, session.report.limit = some (limit : Int) →
        ¬(held < limit ∧ limit ≤ held + pictures.length)) →
      Report.parse source path session.report = (.ok none, session.report.adding pictures) ∧
      runText source path session = (.ok none, session.adding pictures)) := by
  intro pictures held
  have length_eq : pictures.length = parsed.issues.length := List.length_map _
  constructor
  · intro limit limit_eq above within
    have reaches : session.report.ReachesAt (limit - held) := by
      rw [Report.ReachesAt, limit_eq, Nat.add_sub_cancel' (Nat.le_of_lt above)]
    have parsed_eq := Report.parse_of_reachesAt parse_eq reaches (by omega) (by omega) path
    rw [Nat.min_eq_right (by omega)]
    exact ⟨parsed_eq, runText_of_broken parsed_eq⟩
  · intro apart
    have none_reaches (count : Nat) (positive : 0 < count) (le : count ≤ parsed.issues.length) :
        ¬session.report.ReachesAt count := by
      intro reaches
      apply apart _ reaches
      omega
    have parsed_eq := Report.parse_of_apart parse_eq faulty none_reaches path
    exact ⟨parsed_eq, runText_of_none parsed_eq⟩

/-- A step adds its problems one by one, and work is broken off by the one that makes their number
just the limit, or it forgets them all.  Until they are forgotten all are kept in order, and work is
broken off for their number once at most, which is when the report becomes full, and it never is
where there is no limit or one below 1.  A text with issues is reported up to the issue that reaches
the limit, or else completely, and nothing of it is run. -/
theorem problems_counted :
    (∀ (step : Step) (session : Session), step ≠ .reset →
      session.report.Advances (isTooMany (step.work session).1) (step.work session).2.report
        (step.added session)) ∧
    (∀ session : Session, Step.reset.work session =
      (.ok (), { session with report := { session.report with pictures := [] } })) ∧
    (∀ (steps : List Step) (session : Session), .reset ∉ steps →
      (Step.carryOut steps session).2.report.pictures =
        session.report.pictures ++ Step.addedAlong steps session ∧
      (Step.carryOut steps session).1.countP isTooMany ≤ 1 ∧
      (Step.carryOut steps session).2.report.isFull.toNat =
        session.report.isFull.toNat + (Step.carryOut steps session).1.countP isTooMany) ∧
    (∀ (steps : List Step) (session : Session),
      (∀ limit, session.report.limit = some limit → limit < 1) →
      ∀ ending ∈ (Step.carryOut steps session).1, isTooMany ending = false) ∧
    ∀ (source : String) (path : Option PathName) (parsed : Parsed) (session : Session),
      Grammar.parseText source = .ok parsed → parsed.issues ≠ [] →
      let pictures := parsed.issues.map (Report.pictureOf source path)
      let held := session.report.pictures.length
      (∀ limit : Nat, session.report.limit = some (limit : Int) → held < limit →
        limit ≤ held + pictures.length →
        Report.parse source path session.report =
          (.error .tooManyIssues,
            session.report.adding (pictures.take (min pictures.length (limit - held)))) ∧
        runText source path session =
          (.error .tooManyIssues,
            session.adding (pictures.take (min pictures.length (limit - held))))) ∧
      ((∀ limit : Nat, session.report.limit = some (limit : Int) →
          ¬(held < limit ∧ limit ≤ held + pictures.length)) →
        Report.parse source path session.report = (.ok none, session.report.adding pictures) ∧
        runText source path session = (.ok none, session.adding pictures)) := by
  refine ⟨fun step session keeps => Step.counts_work keeps session, Step.work_reset, ?_, ?_, ?_⟩
  · intro steps session keep
    obtain ⟨kept, count_eq⟩ := Step.carryOut_counts keep session
    have full_le := Bool.toNat_le (Step.carryOut steps session).2.report.isFull
    exact ⟨kept, by omega, count_eq⟩
  · intro steps session small ending member
    exact Step.isTooMany_of_limit_lt_one small member
  · intro source path parsed session parse_eq faulty
    exact text_of_issues parse_eq faulty path session

/-- A limit of one problem, one that cannot be reached, and none, with two mistakes and a text with
an issue. -/
theorem problems_counted_sample :
    let strict := start (Report.empty false (some 1) 0)
    let lax := start (Report.empty false none 0)
    let steps : List Step := [.mistake "no", .mistake "again"]
    strict.report.Advances true ((Step.mistake "no").work strict).2.report
        [⟨"ERROR: no", [], []⟩] ∧
      (Step.carryOut steps strict).2.report.pictures =
        [⟨"ERROR: no", [], []⟩, ⟨"ERROR: again", [], []⟩] ∧
      (Step.carryOut steps strict).1.countP isTooMany = 1 ∧
      (∀ ending ∈ (Step.carryOut steps (start (Report.empty false (some 0) 0))).1,
        isTooMany ending = false) ∧
      ∃ parsed, Grammar.parseText "9223372036854775808\n" = .ok parsed ∧ parsed.issues ≠ [] ∧
        (runText "9223372036854775808\n" none strict).1 = .error .tooManyIssues ∧
        runText "9223372036854775808\n" none lax =
          (.ok none, lax.adding
            (parsed.issues.map (Report.pictureOf "9223372036854775808\n" none))) := by
  intro strict lax steps
  obtain ⟨step_counts, -, once, never, text⟩ := problems_counted
  have keep : Step.reset ∉ steps := by simp [steps]
  obtain ⟨pictures_eq, -, count_eq⟩ := once steps strict keep
  obtain ⟨parsed, parse_eq, faulty⟩ := Dialogue.exists_parse_oversized
  have within :
      1 ≤ 0 + (parsed.issues.map (Report.pictureOf "9223372036854775808\n" none)).length := by
    rw [Nat.zero_add, List.length_map]
    exact List.length_pos_of_ne_nil faulty
  have reported := (text _ none parsed strict parse_eq faulty).1 1 rfl Nat.one_pos within
  refine ⟨step_counts (.mistake "no") strict (by simp), pictures_eq, ?_, ?_, parsed, parse_eq,
    faulty, ?_, ?_⟩
  · have full : (Step.carryOut steps strict).2.report.isFull = true := rfl
    rw [full] at count_eq
    have empty : strict.report.isFull = false := rfl
    rw [empty] at count_eq
    simpa using count_eq.symm
  · apply never
    intro limit limit_eq
    obtain rfl := Option.some.inj limit_eq
    decide
  · rw [reported.2]
  · exact ((text _ none parsed lax parse_eq faulty).2 nofun).2

end Session
end MarmosetLang
