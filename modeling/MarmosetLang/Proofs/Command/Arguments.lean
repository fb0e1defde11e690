import MarmosetLang.Command.Arguments

/-!
# Flags around a program

Flags may stand before the name of a program and after it, by their letters or by their words.  They
are taken in from left to right, and what is wished for depends only on how often each of them
stands there.
-/

namespace MarmosetLang
namespace Command

namespace Flag

theorem ofLetter?_letter (flag : Flag) : ofLetter? flag.letter = some flag := by
  cases flag <;> rfl

theorem letter_ne_dash (flag : Flag) : flag.letter ≠ '-' := by
  cases flag <;> decide

/-- An argument stands for flags: by the letters of some after one dash, or by the word of one after
two. -/
inductive Written : String → List Flag → Prop where
  /-- Letters after one dash. -/
  | letters (first : Flag) (others : List Flag) :
      Written (String.ofList ('-' :: first.letter :: others.map letter)) (first :: others)
  /-- A word after two dashes. -/
  | word (flag : Flag) : Written (String.ofList ('-' :: '-' :: flag.word.toList)) [flag]

/-- Arguments stand for flags. -/
inductive AllWritten : List String → List Flag → Prop where
  /-- No arguments. -/
  | nil : AllWritten [] []
  /-- One argument and others. -/
  | cons {text : String} {texts : List String} {flags more : List Flag} :
      Written text flags → AllWritten texts more → AllWritten (text :: texts) (flags ++ more)

end Flag

/-- Arguments name a program, with flags before it and after it. -/
inductive Asks (program : String) : List String → List Flag → Prop where
  /-- Flags, the program, and flags again. -/
  | amid {front back : List String} {before after : List Flag} :
      Flag.AllWritten front before → Flag.AllWritten back after →
        Asks program (front ++ program :: back) (before ++ after)

namespace Reading

/-- Flags that do not ask for an explanation count only by how often they come. -/
theorem foldl_note_eq {flags : List Flag} (no_help : .help ∉ flags) (reading : Reading) :
    flags.foldl note reading =
      { reading with
        wish := { reading.wish with
          check := reading.wish.check || decide (.check ∈ flags)
          verbosity := reading.wish.verbosity + flags.count .verbose } } := by
  induction flags generalizing reading with
  | nil => simp
  | cons flag others ih =>
      rw [List.mem_cons, not_or] at no_help
      rw [List.foldl_cons, ih no_help.2]
      cases flag with
      | help => exact absurd rfl no_help.1
      | check => simp [note]
      | verbose => simp [note, Nat.add_right_comm, Nat.add_assoc]

theorem help_foldl_note {flags : List Flag} (no_help : .help ∉ flags) (reading : Reading) :
    (flags.foldl note reading).help = reading.help := by
  rw [foldl_note_eq no_help]

/-- Letters of flags after a flag are taken in one after another. -/
theorem spread_letters (first : Flag) (others : List Flag) (reading : Reading) :
    reading.spread first (others.map Flag.letter) =
      .ok ((first :: others).foldl note reading) := by
  induction others generalizing first reading with
  | nil => rfl
  | cons next others ih =>
      rw [List.map_cons, spread, Flag.ofLetter?_letter]
      exact ih next (reading.note first)

/-- The first argument that is no flag is the program. -/
theorem read_plain {reading : Reading} (free : reading.taken = false) (text : String)
    {others : List Argument} (no_divider : .divider ∉ others) :
    reading.read (.plain text :: others) = (reading.settle (some text)).read others := by
  have not_first : ∀ rest, others = .divider :: rest → False := by
    rintro rest rfl
    exact no_divider List.mem_cons_self
  rw [read, free, if_neg Bool.false_ne_true]
  exact not_first

end Reading

namespace Flag

/-- An argument that stands for flags is seen as them. -/
theorem Written.exists_ofText {text : String} {flags : List Flag} (written : Written text flags) :
    text ≠ "--" ∧ ∃ first letters, Argument.ofText text = .ok (.flags first letters) ∧
      ∀ reading : Reading,
        reading.spread first letters = .ok (flags.foldl Reading.note reading) := by
  cases written with
  | letters first others =>
      refine ⟨?_, first, others.map letter, ?_, Reading.spread_letters first others⟩
      · intro text_eq
        have letters_eq := congrArg String.toList text_eq
        rw [String.toList_ofList] at letters_eq
        exact first.letter_ne_dash (List.cons.inj (List.cons.inj letters_eq).2).1
      · rw [Argument.ofText, String.toList_ofList]
        cases others with
        | nil => cases first <;> rfl
        | cons next rest => cases first <;> cases next <;> rfl
  | word flag =>
      refine ⟨?_, flag, [], ?_, fun _ => rfl⟩
      · cases flag <;> decide
      · cases flag <;> rfl

/-- Arguments that stand for flags are seen as arguments that are read by taking in these flags. -/
theorem AllWritten.exists_ofTexts {texts : List String} {flags : List Flag}
    (written : AllWritten texts flags) (no_help : .help ∉ flags) :
    ∃ arguments, .divider ∉ arguments ∧
      (∀ rest found, Argument.ofTexts rest = .ok found →
        Argument.ofTexts (texts ++ rest) = .ok (arguments ++ found)) ∧
      ∀ (reading : Reading) rest, reading.help = false →
        reading.read (arguments ++ rest) = (flags.foldl Reading.note reading).read rest := by
  induction written with
  | nil => exact ⟨[], List.not_mem_nil, fun _ _ found => found, fun _ _ _ => rfl⟩
  | @cons text texts flags more written _ ih =>
      rw [List.mem_append, not_or] at no_help
      obtain ⟨no_divider, first, letters, text_eq, spread_eq⟩ := written.exists_ofText
      obtain ⟨arguments, none_divides, texts_eq, read_eq⟩ := ih no_help.2
      refine ⟨.flags first letters :: arguments, ?_, ?_, ?_⟩
      · exact fun member => none_divides ((List.mem_cons.mp member).resolve_left nofun)
      · intro rest found rest_eq
        rw [List.cons_append, Argument.ofTexts, if_neg no_divider, text_eq,
          texts_eq rest found rest_eq]
        rfl
      · intro reading rest no_help_yet
        have still : (flags.foldl Reading.note reading).help = false := by
          rw [Reading.help_foldl_note no_help.1, no_help_yet]
        rw [List.cons_append, Reading.read, spread_eq, List.foldl_append,
          ← read_eq _ rest still]
        change (if _ then _ else _) = _
        rw [still]
        rfl

end Flag

/-- A text that does not begin with a dash is no flag. -/
theorem Argument.ofText_of_head?_ne {text : String} (named : text.toList.head? ≠ some '-') :
    ofText text = .ok (.plain text) := by
  rw [ofText]
  split
  · rename_i text_eq
    exact absurd (by rw [text_eq]; rfl) named
  · rename_i text_eq
    exact absurd (by rw [text_eq]; rfl) named
  · rfl

/-- Arguments that name a program and do not ask for an explanation are a wish to run it or, if the
flag for that is among them, to check it. -/
theorem Asks.ofArguments_eq {program : String} {arguments : List String} {flags : List Flag}
    (asks : Asks program arguments flags) (named : program.toList.head? ≠ some '-')
    (no_help : .help ∉ flags) :
    Wish.ofArguments arguments =
      .ok (some ⟨some program, decide (.check ∈ flags), flags.count .verbose⟩) := by
  obtain @⟨front, back, before, after, written, also_written⟩ := asks
  rw [List.mem_append, not_or] at no_help
  obtain ⟨first, -, first_eq, read_first⟩ := written.exists_ofTexts no_help.1
  obtain ⟨last, no_divider, last_eq, read_last⟩ := also_written.exists_ofTexts no_help.2
  have back_eq : Argument.ofTexts back = .ok last := by
    simpa only [List.append_nil] using last_eq [] [] rfl
  have not_divider : program ≠ "--" := by
    rintro rfl
    exact named rfl
  have rest_eq : Argument.ofTexts (program :: back) = .ok (.plain program :: last) := by
    rw [Argument.ofTexts, if_neg not_divider, Argument.ofText_of_head?_ne named, back_eq]
    rfl
  have read_eq : Reading.start.read (first ++ .plain program :: last) =
      .ok ⟨⟨some program, decide (.check ∈ before ++ after), (before ++ after).count .verbose⟩,
        true, false, []⟩ := by
    rw [read_first _ _ rfl, Reading.foldl_note_eq no_help.1,
      Reading.read_plain rfl program no_divider, ← List.append_nil last, read_last _ _ rfl,
      Reading.foldl_note_eq no_help.2]
    simp [Reading.read, Reading.settle, Reading.start]
  rw [Wish.ofArguments, first_eq _ _ rest_eq]
  change (Reading.start.read _ >>= _) = _
  rw [read_eq]
  rfl

end Command
end MarmosetLang
