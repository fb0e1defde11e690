import MarmosetLang.Proofs.Evaluation.HashLiteral
import MarmosetLang.Proofs.Grammar.Exactness
import MarmosetLang.Proofs.Grammar.Listing
import MarmosetLang.Proofs.Grammar.Numerals
import MarmosetLang.Proofs.Value.Data

/-!
# Data read back

What is displayed of data may be read as a program again.  The tokens of the text spell a literal,
and evaluating that gives a value of the same structure.  The least number is the exception: it
would be written as the opposite of a number that is too large for a numeral.
-/

namespace MarmosetLang

theorem mem_intercalate_of_mem {α : Type} {separator piece : List α} {pieces : List (List α)}
    (piece_mem : piece ∈ pieces) {element : α} (member : element ∈ piece) :
    element ∈ separator.intercalate pieces := by
  obtain ⟨first, others, rfl⟩ := List.exists_cons_of_ne_nil (List.ne_nil_of_mem piece_mem)
  rw [intercalate_cons_eq, List.mem_append]
  rcases List.mem_cons.mp piece_mem with rfl | piece_mem
  · exact .inl member
  · exact .inr (List.mem_flatMap.mpr ⟨piece, piece_mem, List.mem_append_right _ member⟩)

theorem forall_mem_intercalate {α : Type} {Holds : α → Prop} {separator : List α}
    {pieces : List (List α)} (between : ∀ element ∈ separator, Holds element)
    (inside : ∀ piece ∈ pieces, ∀ element ∈ piece, Holds element) :
    ∀ element ∈ separator.intercalate pieces, Holds element := by
  cases pieces with
  | nil => exact List.forall_mem_nil _
  | cons first others =>
      rw [List.forall_mem_cons] at inside
      rw [intercalate_cons_eq]
      refine List.forall_mem_append.mpr ⟨inside.1, fun element member => ?_⟩
      obtain ⟨piece, piece_mem, here⟩ := List.mem_flatMap.mp member
      exact (List.mem_append.mp here).elim (between element) (inside.2 piece piece_mem element)

/-- What is true of all on the one side is true of all on the other side, if it passes over. -/
theorem forall_mem_of_forall₂ {α β : Type} {related : α → β → Prop} {Here : α → Prop}
    {There : β → Prop} {left : List α} {right : List β} (each : List.Forall₂ related left right)
    (all : ∀ first ∈ left, Here first)
    (pass : ∀ first second, Here first → related first second → There second) :
    ∀ second ∈ right, There second := by
  induction each with
  | nil => exact List.forall_mem_nil _
  | cons here _ ih =>
      rw [List.forall_mem_cons] at all ⊢
      exact ⟨pass _ _ all.1 here, ih all.2⟩

open Evaluation Value

/-- Wherever an expression is evaluated, it comes to a value of the same structure as the given one,
if it may go down as many levels as that has. -/
def Expr.Recovers (expr : Expr) (value : Value) : Prop :=
  ∀ depth, value.levels ≤ depth → ∀ scope store, ∃ copy later,
    evaluate depth expr scope store = (.finished copy, later) ∧ SameStructure value copy

/-- The tokens that a value is displayed as spell an expression that recovers it, wherever they
are. -/
def Value.IsWritten (value : Value) : Prop :=
  ∀ tokens : List Token, tokens.map Token.content = value.contents →
    ∃ expr : Expr, (∀ after, Spelled (.bare expr) (tokens ++ after) after) ∧ expr.Recovers value

theorem Value.IsWritten.conveys {value : Value} (written : value.IsWritten) :
    Conveys Grammar.lowest value.contents (·.Recovers value) := by
  intro tokens contents_eq
  obtain ⟨expr, spelled, recovers⟩ := written tokens contents_eq
  exact ⟨expr, fun after => (spelled after).lowest, recovers⟩

/-! ## Numbers and truth values -/

theorem spelled_ofNat {number : Nat} (small : number ≤ Grammar.maxInteger) {token : Token}
    (content_eq : token.content = (.integer, Decimal.ofNat number)) (after : List Token) :
    Spelled (.bare (.integer token number)) (token :: after) after := by
  obtain ⟨kind, literal_eq⟩ := Prod.mk.inj content_eq
  have value_eq : Decimal.value token.literal = number := by
    rw [literal_eq, Decimal.value_ofNat]
  have digits := Decimal.length_ofNat_le (Nat.le_succ_of_le small)
  rw [← literal_eq] at digits
  have short : token.literal.length ≤ Grammar.maxDigits := digits.trans (by decide)
  rw [← value_eq] at small ⊢
  exact .integer kind short small

theorem isWritten_natural {number : Nat} (serial : Nat) (fits : Word.Fits (.ofNat number)) :
    (integer serial (.ofNat number)).IsWritten := by
  intro tokens contents_eq
  rw [(legible_natural serial number).2, List.map_eq_singleton_iff] at contents_eq
  obtain ⟨token, rfl, content_eq⟩ := contents_eq
  have small : number ≤ Grammar.maxInteger := Int.ofNat_le.mp fits.2
  refine ⟨.integer token number, spelled_ofNat small content_eq, fun depth deep scope store => ?_⟩
  simp only [levels] at deep
  obtain ⟨depth, rfl⟩ := Nat.exists_eq_add_of_le' (Nat.le_of_succ_le deep)
  rw [evaluate_succ]
  exact ⟨_, _, rfl, .integer trivial⟩

theorem isWritten_negative {number : Nat} (serial : Nat) (fits : Word.Fits (.negSucc number))
    (opposite : Int.negSucc number ≠ Word.least) :
    (integer serial (.negSucc number)).IsWritten := by
  intro tokens contents_eq
  rw [(legible_negative serial number).2, List.map_eq_cons_iff] at contents_eq
  obtain ⟨minus, rest, rfl, minus_eq, rest_eq⟩ := contents_eq
  obtain ⟨token, rfl, content_eq⟩ := List.map_eq_singleton_iff.mp rest_eq
  obtain ⟨kind, literal_eq⟩ := Prod.mk.inj minus_eq
  have small : number + 1 ≤ Grammar.maxInteger := by
    simp only [Word.Fits, Word.least, Grammar.maxInteger] at *
    omega
  refine ⟨.prefixed minus (.integer token (number + 1)), fun after => ?_,
    fun depth deep scope store => ?_⟩
  · exact .prefixed (.inr kind)
      (.ungrouped (Nat.le_of_ble_eq_true rfl) (spelled_ofNat small content_eq after))
  · simp only [levels] at deep
    obtain ⟨depth, rfl⟩ := Nat.exists_eq_add_of_le' deep
    have operand_done : evaluate (depth + 1) (.integer token (number + 1)) scope store =
        (.finished (.integer store.made (number + 1 : Nat)), store.fresh.2) := by
      rw [evaluate_succ]
      rfl
    have negated : Word.wrap (-(number + 1 : Nat)) = .negSucc number :=
      Word.wrap_of_fits fits
    refine ⟨.integer store.fresh.2.made (.negSucc number), store.fresh.2.fresh.2, ?_,
      .integer trivial⟩
    rw [evaluate_succ]
    refine (ifPlain_of_no_signal _ operand_done rfl).trans ?_
    rw [literal_eq, ← negated]
    rfl

theorem isWritten_boolean (truth : Bool) : (boolean truth).IsWritten := by
  intro tokens contents_eq
  rw [(legible_boolean truth).2, List.map_eq_singleton_iff] at contents_eq
  obtain ⟨token, rfl, content_eq⟩ := contents_eq
  have kind_eq : token.kind = if truth then .trueWord else .falseWord := by
    cases truth <;> exact congrArg Prod.fst content_eq
  refine ⟨.boolean token, fun after => .boolean ?_, fun depth deep scope store => ?_⟩
  · cases truth
    · exact .inr kind_eq
    · exact .inl kind_eq
  · simp only [levels] at deep
    obtain ⟨depth, rfl⟩ := Nat.exists_eq_add_of_le' (Nat.le_of_succ_le deep)
    refine ⟨boolean truth, store, ?_, .boolean⟩
    rw [evaluate_succ, expression, kind_eq]
    cases truth <;> rfl

/-! ## Rows -/

/-- Expressions that recover values are collected as copies of them. -/
theorem exists_collected {exprs : List Expr} {elements : List Value}
    (each : List.Forall₂ Expr.Recovers exprs elements)
    (plain : ∀ element ∈ elements, element.isSignal = false) {depth : Nat}
    (deep : levelsEach elements ≤ depth) (scope : ScopeId) (store : Store) :
    ∃ copies later, Collected depth scope exprs store copies later ∧
      List.Forall₂ SameStructure elements copies := by
  induction each generalizing store with
  | nil => exact ⟨[], store, .nil, .nil⟩
  | @cons expr element exprs elements recovers _ ih =>
      rw [List.forall_mem_cons] at plain
      rw [levelsEach, Nat.max_le] at deep
      obtain ⟨copy, middle, done, same⟩ := recovers depth deep.1 scope store
      obtain ⟨copies, later, collected, all_same⟩ := ih plain.2 deep.2 middle
      have copy_plain : copy.isSignal = false := same.isSignal_eq ▸ plain.1
      exact ⟨copy :: copies, later, .cons done copy_plain collected, .cons same all_same⟩

theorem isWritten_array (serial : Nat) {elements : List Value}
    (legible : ∀ element ∈ elements, element.IsLegible)
    (plain : ∀ element ∈ elements, element.isSignal = false)
    (each : ∀ element ∈ elements, element.IsWritten) : (array serial elements).IsWritten := by
  intro tokens contents_eq
  rw [(legible_array serial legible).2] at contents_eq
  obtain ⟨opener, inside, closer, rfl, opened, inside_eq, closed⟩ :=
    Token.exists_enclosed contents_eq
  obtain ⟨exprs, spelled, recovers⟩ :=
    exists_items .closeBracket (fun element member => (each element member).conveys) inside_eq
  refine ⟨.array opener exprs, fun after => ?_, fun depth deep scope store => ?_⟩
  · rw [List.cons_append, List.append_assoc]
    exact .array (congrArg Prod.fst opened) (spelled closer after (congrArg Prod.fst closed))
  · simp only [levels] at deep
    obtain ⟨depth, rfl⟩ := Nat.exists_eq_add_of_le' (Nat.le_of_add_left_le deep)
    obtain ⟨copies, later, collected, same⟩ :=
      exists_collected recovers plain (Nat.le_of_succ_le_succ deep) scope store
    refine ⟨array later.made copies, later.fresh.2, ?_, .ofElements trivial same⟩
    rw [evaluate_succ, expression, collected.collect_eq]
    rfl

/-! ## Hashes -/

/-- The expressions of a pair recover the key and the value of an entry. -/
def RecoversEntry (pair : Expr × Expr) (entry : Entry Value) : Prop :=
  pair.1.Recovers entry.key ∧ pair.2.Recovers entry.value

theorem conveysPair_entry {entry : Entry Value} (key : entry.key.IsWritten)
    (value : entry.value.IsWritten) :
    ConveysPair (entryContents entry) (RecoversEntry · entry) :=
  key.conveys.pair value.conveys

/-- A pair of values is a copy of an entry. -/
structure CopiesEntry (entry : Entry Value) (pair : Value × Value) : Prop where
  key : SameStructure entry.key pair.1
  value : SameStructure entry.value pair.2

/-- Pairs that recover entries finish with copies of them. -/
theorem exists_pairsFinish {pairs : List (Expr × Expr)} {entries : List (Entry Value)}
    (each : List.Forall₂ RecoversEntry pairs entries) {depth : Nat}
    (deep : levelsEntries entries ≤ depth) (scope : ScopeId) (store : Store) :
    ∃ found later, PairsFinish (evaluate depth) scope pairs store found later ∧
      List.Forall₂ CopiesEntry entries found := by
  induction each generalizing store with
  | nil => exact ⟨[], store, .nil, .nil⟩
  | @cons pair entry pairs entries recovers _ ih =>
      rw [levelsEntries, Nat.max_le, Nat.max_le] at deep
      obtain ⟨⟨key_deep, value_deep⟩, rest_deep⟩ := deep
      obtain ⟨key, between, key_done, key_same⟩ := recovers.1 depth key_deep scope store
      obtain ⟨value, after, value_done, value_same⟩ :=
        recovers.2 depth value_deep scope between
      obtain ⟨found, later, finish, copies⟩ := ih rest_deep after
      exact ⟨(key, value) :: found, later, .cons key_done value_done finish,
        .cons ⟨key_same, value_same⟩ copies⟩

/-- Copies of entries are entered into their slots. -/
theorem paired_foldl_enter {entries : List (Entry Value)} {found : List (Value × Value)}
    (copies : List.Forall₂ CopiesEntry entries found)
    (slots : ∀ entry ∈ entries, entry.key.slot? = some entry.slot)
    {earlier others : List (Entry Value)}
    (paired : List.Forall₂ (Entry.Paired SameStructure) earlier others) :
    List.Forall₂ (Entry.Paired SameStructure) (entries.foldl Dictionary.insert earlier)
      (found.foldl Dictionary.enter others) := by
  induction copies generalizing earlier others with
  | nil => exact paired
  | @cons entry pair entries found copy _ ih =>
      rw [List.forall_mem_cons] at slots
      have slot_eq : pair.1.slot? = some entry.slot := copy.key.slot?_eq ▸ slots.1
      have enter_eq : Dictionary.enter others pair =
          Dictionary.insert others ⟨entry.slot, pair.1, pair.2⟩ := by
        rw [Dictionary.enter, slot_eq]
      rw [List.foldl_cons, List.foldl_cons, enter_eq]
      exact ih slots.2 (Dictionary.paired_insert paired ⟨rfl, copy.key, copy.value⟩)

theorem isWritten_hash (serial : Nat) {entries : List (Entry Value)}
    (here : (hash serial entries).IsDatum)
    (legible_keys : ∀ entry ∈ entries, entry.key.IsLegible)
    (legible_values : ∀ entry ∈ entries, entry.value.IsLegible)
    (plain : ∀ entry ∈ entries, entry.value.isSignal = false)
    (keys : ∀ entry ∈ entries, entry.key.IsWritten)
    (values : ∀ entry ∈ entries, entry.value.IsWritten) : (hash serial entries).IsWritten := by
  intro tokens contents_eq
  rw [(legible_hash serial legible_keys legible_values).2] at contents_eq
  obtain ⟨opener, inside, closer, rfl, opened, inside_eq, closed⟩ :=
    Token.exists_enclosed contents_eq
  obtain ⟨pairs, spelled, recovers⟩ :=
    exists_pairs (fun entry member => conveysPair_entry (keys entry member) (values entry member))
      inside_eq
  refine ⟨.hash opener pairs, fun after => ?_, fun depth deep scope store => ?_⟩
  · rw [List.cons_append, List.append_assoc]
    exact .hash (congrArg Prod.fst opened) (spelled closer after (congrArg Prod.fst closed))
  · obtain ⟨depth, rfl⟩ := Nat.exists_eq_add_of_le' (Nat.le_of_add_left_le deep)
    simp only [levels] at deep
    obtain ⟨found, later, finish, copies⟩ :=
      exists_pairsFinish recovers (Nat.le_of_succ_le_succ deep) scope store
    have paired := paired_foldl_enter copies here.1 .nil
    rw [Dictionary.foldl_insert_of_nodup here.2] at paired
    have usable : ∀ pair ∈ found, ∃ slot, pair.1.slot? = some slot :=
      forall_mem_of_forall₂ copies here.1 fun entry _ slot_eq copy =>
        ⟨entry.slot, copy.key.slot?_eq ▸ slot_eq⟩
    have found_plain : ∀ pair ∈ found, pair.2.isSignal = false :=
      forall_mem_of_forall₂ copies plain fun _ _ no_signal copy =>
        copy.value.isSignal_eq ▸ no_signal
    exact ⟨hash later.made (found.foldl Dictionary.enter []), later.fresh.2,
      finish.evaluate_hash usable found_plain opener, .ofEntries trivial paired⟩

/-! ## All data -/

theorem isSignal_of_isDatum {value : Value} (here : value.IsDatum) : value.isSignal = false := by
  cases value with
  | returned | error => exact here.elim
  | _ => rfl

theorem isLegible_of_data {value : Value} (data : value.Every IsDatum) : value.IsLegible := by
  induction data with
  | @integer serial number =>
      cases number with
      | ofNat number => exact (legible_natural serial number).1
      | negSucc number => exact (legible_negative serial number).1
  | boolean => exact (legible_boolean _).1
  | array _ _ inside => exact (legible_array _ inside).1
  | hash _ _ _ keys values => exact (legible_hash _ keys values).1
  | null here | string here | function here | builtin here | returned here | error here =>
      exact here.elim

theorem contents_array (serial : Nat) {elements : List Value}
    (each : ∀ element ∈ elements, element.Every IsDatum) :
    (array serial elements).contents =
      (.openBracket, "[") ::
        ([(.comma, ",")].intercalate (elements.map contents) ++ [(.closeBracket, "]")]) :=
  (legible_array serial fun element member => isLegible_of_data (each element member)).2

theorem contents_hash (serial : Nat) {entries : List (Entry Value)}
    (keys : ∀ entry ∈ entries, entry.key.Every IsDatum)
    (values : ∀ entry ∈ entries, entry.value.Every IsDatum) :
    (hash serial entries).contents =
      (.openBrace, "\x7b") ::
        ([(.comma, ",")].intercalate (entries.map entryContents) ++ [(.closeBrace, "\x7d")]) :=
  (legible_hash serial (fun entry member => isLegible_of_data (keys entry member))
    fun entry member => isLegible_of_data (values entry member)).2

/-- Data without the least number are written as expressions that recover them. -/
theorem isWritten_of_data {value : Value} (data : value.Every IsDatum)
    (opposites : value.Every HasOpposite) : value.IsWritten := by
  induction data with
  | @integer serial number here =>
      cases number with
      | ofNat number => exact isWritten_natural serial here
      | negSucc number => exact isWritten_negative serial here opposites.here
  | boolean => exact isWritten_boolean _
  | array _ elements inside =>
      cases opposites with
      | array _ others =>
          exact isWritten_array _
            (fun element member => isLegible_of_data (elements element member))
            (fun element member => isSignal_of_isDatum (elements element member).here)
            fun element member => inside element member (others element member)
  | hash here keys values written_keys written_values =>
      cases opposites with
      | hash _ other_keys other_values =>
          exact isWritten_hash _ here (fun entry member => isLegible_of_data (keys entry member))
            (fun entry member => isLegible_of_data (values entry member))
            (fun entry member => isSignal_of_isDatum (values entry member).here)
            (fun entry member => written_keys entry member (other_keys entry member))
            fun entry member => written_values entry member (other_values entry member)
  | null here | string here | function here | builtin here | returned here | error here =>
      exact here.elim

/-! ## The least number -/

/-- The numeral for the opposite of the least number. -/
def leastNumeral : Kind × String :=
  (.integer, "9223372036854775808")

/-- Data in whose text the numeral for it does not occur do not hold the least number. -/
theorem hasOpposite_of_not_mem {value : Value} (data : value.Every IsDatum)
    (missing : leastNumeral ∉ value.contents) : value.Every HasOpposite := by
  induction data with
  | @integer serial number =>
      refine .integer ?_
      rintro rfl
      refine missing ?_
      have least_eq : Word.least = .negSucc 0x7fffffffffffffff := rfl
      rw [least_eq, (legible_negative serial _).2]
      exact List.mem_cons_of_mem _ (List.mem_singleton.mpr (by decide))
  | boolean => exact .boolean trivial
  | @array serial elements _ each inside =>
      rw [contents_array serial each] at missing
      refine .array trivial fun element member => inside element member fun found => missing ?_
      refine List.mem_cons_of_mem _ (List.mem_append_left _ ?_)
      exact mem_intercalate_of_mem (List.mem_map_of_mem member) found
  | @hash serial entries _ keys values in_keys in_values =>
      rw [contents_hash serial keys values] at missing
      have missing_entry (entry : Entry Value) (member : entry ∈ entries) :
          leastNumeral ∉ entryContents entry := by
        refine fun found => missing (List.mem_cons_of_mem _ (List.mem_append_left _ ?_))
        exact mem_intercalate_of_mem (List.mem_map_of_mem member) found
      refine .hash trivial (fun entry member => ?_) fun entry member => ?_
      · refine in_keys entry member fun found => missing_entry entry member ?_
        exact List.mem_append_left _ found
      · refine in_values entry member fun found => missing_entry entry member ?_
        exact List.mem_append_right _ (List.mem_cons_of_mem _ found)
  | null here | string here | function here | builtin here | returned here | error here =>
      exact here.elim

/-- A content is no numeral of many digits. -/
def IsShort (content : Kind × String) : Prop :=
  content.1 = .integer → content.2.length ≤ Grammar.maxDigits

theorem isShort_of_ne {content : Kind × String} (ne : content.1 ≠ .integer) : IsShort content :=
  fun kind => absurd kind ne

theorem isShort_ofNat {number : Nat} (le : number ≤ 0x8000000000000000) :
    IsShort (.integer, Decimal.ofNat number) :=
  fun _ => (Decimal.length_ofNat_le le).trans (by decide)

/-- Data are displayed without long numerals. -/
theorem isShort_of_data {value : Value} (data : value.Every IsDatum) :
    ∀ content ∈ value.contents, IsShort content := by
  have comma : ∀ content ∈ [(Kind.comma, ",")], IsShort content :=
    List.forall_mem_singleton.mpr (isShort_of_ne (by decide))
  induction data with
  | @integer serial number here =>
      cases number with
      | ofNat number =>
          rw [(legible_natural serial number).2, List.forall_mem_singleton]
          exact isShort_ofNat (Nat.le_succ_of_le (Int.ofNat_le.mp here.2))
      | negSucc number =>
          have le : number + 1 ≤ 0x8000000000000000 := by
            simp only [IsDatum, Word.Fits] at here
            omega
          rw [(legible_negative serial number).2, List.forall_mem_cons, List.forall_mem_singleton]
          exact ⟨isShort_of_ne (by decide), isShort_ofNat le⟩
  | @boolean truth =>
      rw [(legible_boolean truth).2, List.forall_mem_singleton]
      cases truth <;> exact isShort_of_ne (by decide)
  | @array serial elements _ each inside =>
      rw [contents_array serial each, List.forall_mem_cons, List.forall_mem_append,
        List.forall_mem_singleton]
      refine ⟨isShort_of_ne (by decide), forall_mem_intercalate comma ?_,
        isShort_of_ne (by decide)⟩
      exact List.forall_mem_map.mpr inside
  | @hash serial entries _ keys values in_keys in_values =>
      rw [contents_hash serial keys values, List.forall_mem_cons, List.forall_mem_append,
        List.forall_mem_singleton]
      refine ⟨isShort_of_ne (by decide), forall_mem_intercalate comma ?_,
        isShort_of_ne (by decide)⟩
      refine List.forall_mem_map.mpr fun entry member => ?_
      rw [entryContents, List.forall_mem_append, List.forall_mem_cons]
      exact ⟨in_keys entry member, isShort_of_ne (by decide), in_values entry member⟩
  | null here | string here | function here | builtin here | returned here | error here =>
      exact here.elim

/-! ## Reading back -/

/-- A program of one expression comes to the value of that. -/
theorem program_expression {nested : Evaluator} {scope : ScopeId} {token : Token} {expr : Expr}
    {store later : Store} {value : Value}
    (done : nested expr scope store = (.finished value, later))
    (no_signal : value.isSignal = false) :
    program nested scope ⟨[.expression token expr]⟩ store = (.finished (some value), later) := by
  have statement_done : statement nested scope (.expression token expr) store =
      (.finished (some value), later) := Run.bind_of_finished done
  have statements_done : statements nested scope none [.expression token expr] store =
      (.finished (some value), later) := by
    refine (Run.bind_of_finished statement_done).trans ?_
    rw [Option.any_some, if_neg (Bool.eq_false_iff.mp no_signal)]
    rfl
  refine (Run.bind_of_finished statements_done).trans ?_
  cases value with
  | returned | error => cases no_signal
  | _ => rfl

/-- The text as which data are displayed is a program.  Without the least number in it nothing is
complained of, and the program is one expression, whose value has the same structure and is
displayed alike.  With the least number in it the numeral for that is complained of. -/
theorem reads_back {value : Value} (data : value.Every IsDatum) :
    ∃ parsed, Grammar.parseText value.render = .ok parsed ∧
      (value.Every HasOpposite →
        parsed.issues = [] ∧
        ∃ token expr, parsed.program = ⟨[.expression token expr]⟩ ∧
          ∀ depth, value.levels ≤ depth → ∀ scope store, ∃ copy later,
            program (evaluate depth) scope parsed.program store = (.finished (some copy), later) ∧
              SameStructure value copy ∧ copy.render = value.render) ∧
      (¬ value.Every HasOpposite → ∃ issue ∈ parsed.issues,
        issue.message = "could not parse \"9223372036854775808\" as integer") := by
  have contents_eq : (Token.scan value.render).map Token.content = value.contents := rfl
  by_cases opposites : value.Every HasOpposite
  · obtain ⟨expr, spelled, recovers⟩ := isWritten_of_data data opposites _ contents_eq
    have bare := spelled []
    rw [List.append_nil] at bare
    obtain ⟨token, others, tokens_eq⟩ : ∃ token others, Token.scan value.render = token :: others :=
      List.exists_cons_of_length_pos (Nat.le_of_add_left_le bare.length_after)
    have whole : Program.Spelled ⟨[.expression token expr]⟩ (Token.scan value.render) := by
      rw [tokens_eq] at bare ⊢
      exact .statements (.standing bare.lowest (.omitted (by decide))) .noStatements
    refine ⟨_, Grammar.parseText_of_spelled whole, fun _ => ⟨rfl, token, expr, rfl, ?_⟩,
      absurd opposites⟩
    intro depth deep scope store
    obtain ⟨copy, later, done, same⟩ := recovers depth deep scope store
    have no_signal : copy.isSignal = false :=
      same.isSignal_eq ▸ isSignal_of_isDatum data.here
    exact ⟨copy, later, program_expression done no_signal, same, same.render_eq.symm⟩
  · have numeral_mem : leastNumeral ∈ (Token.scan value.render).map Token.content :=
      not_imp_comm.mp (hasOpposite_of_not_mem data) opposites
    obtain ⟨token, member, token_eq⟩ := List.mem_map.mp numeral_mem
    obtain ⟨kind, literal_eq⟩ := Prod.mk.inj token_eq
    have short : (Stream.ofText value.render).Short := fun token member kind =>
      isShort_of_data data token.content (List.mem_map_of_mem member) kind
    have oversized : Grammar.maxInteger < Decimal.value token.literal := by
      rw [literal_eq]
      decide +kernel
    obtain ⟨parsed, parse_eq, issue, issue_mem, -, message_eq⟩ :=
      Grammar.exists_parse_of_oversized short member kind oversized
    refine ⟨parsed, parse_eq, fun all => absurd all opposites, fun _ => ⟨issue, issue_mem, ?_⟩⟩
    rw [message_eq, literal_eq]
    decide +kernel

/-- Data with a number below zero as a key. -/
def sampleData : Value :=
  .array 0 [.boolean true,
    .hash 1 [⟨⟨.integer, Word.unsigned (-5)⟩, .integer 2 (-5), .array 3 []⟩]]

theorem every_sampleData {Holds : Value → Prop} (rows : ∀ serial elements,
      Holds (.array serial elements)) (truth : Holds (.boolean true))
    (hash : Holds (.hash 1 [⟨⟨.integer, Word.unsigned (-5)⟩, .integer 2 (-5), .array 3 []⟩]))
    (number : Holds (.integer 2 (-5))) : sampleData.Every Holds := by
  have hash_every : Every Holds
      (.hash 1 [⟨⟨.integer, Word.unsigned (-5)⟩, .integer 2 (-5), .array 3 []⟩]) :=
    .hash hash (List.forall_mem_singleton.mpr (.integer number))
      (List.forall_mem_singleton.mpr (.array (rows _ _) (List.forall_mem_nil _)))
  exact .array (rows _ _)
    (List.forall_mem_cons.mpr ⟨.boolean truth, List.forall_mem_singleton.mpr hash_every⟩)

theorem reads_back_sample :
    sampleData.render = "[true, \x7b-5: []\x7d]" ∧ sampleData.Every IsDatum ∧
      (∃ parsed, Grammar.parseText sampleData.render = .ok parsed ∧ parsed.issues = [] ∧
        ∃ copy later,
          program (evaluate 4) 0 parsed.program .empty = (.finished (some copy), later) ∧
            SameStructure sampleData copy ∧ copy.render = sampleData.render) ∧
      (integer 0 Word.least).Every IsDatum ∧
      ∃ parsed, Grammar.parseText (integer 0 Word.least).render = .ok parsed ∧
        ∃ issue ∈ parsed.issues,
          issue.message = "could not parse \"9223372036854775808\" as integer" := by
  have data : sampleData.Every IsDatum :=
    every_sampleData (fun _ _ => trivial) trivial
      ⟨List.forall_mem_singleton.mpr rfl, List.pairwise_singleton _ _⟩ (by decide : Word.Fits (-5))
  have opposites : sampleData.Every HasOpposite :=
    every_sampleData (fun _ _ => trivial) trivial trivial (by decide : (-5 : Int) ≠ Word.least)
  have least_data : (integer 0 Word.least).Every IsDatum :=
    .integer (by decide : Word.Fits Word.least)
  obtain ⟨parsed, parse_eq, clean, -⟩ := reads_back data
  obtain ⟨no_issues, token, expr, -, recovered⟩ := clean opposites
  obtain ⟨least_parsed, least_eq, -, complains⟩ := reads_back least_data
  refine ⟨by decide +kernel, data, ⟨parsed, parse_eq, no_issues, ?_⟩, least_data, least_parsed,
    least_eq, complains fun all => all.here rfl⟩
  exact recovered 4 (by decide +kernel) 0 .empty

end MarmosetLang
