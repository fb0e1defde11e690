import MarmosetLang.Text.Line

/-!
# Places on lines

How a text breaks into lines, and where an offset is found in a text.  The row is that of the last
line that begins at the offset or before it, and the column makes up for what is between them.  So
row and column lead back to the offset, and the character at that column of the line is the one that
the offset counts to.
-/

namespace MarmosetLang
namespace Line

/-- A text breaks into lines.  Each ends with a line break and has none before it, but for the last
one, which has none at all. -/
inductive Breaks : List Char → List (List Char) → Prop where
  | last {body : List Char} (unbroken : ∀ c ∈ body, c ≠ '\r' ∧ c ≠ '\n') : Breaks body [body]
  | feed {body rest : List Char} {lines : List (List Char)}
      (unbroken : ∀ c ∈ body, c ≠ '\r' ∧ c ≠ '\n') (breaks : Breaks rest lines) :
      Breaks (body ++ '\n' :: rest) ((body ++ ['\n']) :: lines)
  | carriageAndFeed {body rest : List Char} {lines : List (List Char)}
      (unbroken : ∀ c ∈ body, c ≠ '\r' ∧ c ≠ '\n') (breaks : Breaks rest lines) :
      Breaks (body ++ '\r' :: '\n' :: rest) ((body ++ ['\r', '\n']) :: lines)
  | carriage {body rest : List Char} {lines : List (List Char)}
      (unbroken : ∀ c ∈ body, c ≠ '\r' ∧ c ≠ '\n') (alone : rest.head? ≠ some '\n')
      (breaks : Breaks rest lines) :
      Breaks (body ++ '\r' :: rest) ((body ++ ['\r']) :: lines)

theorem Breaks.cons {c : Char} {text line : List Char} {others : List (List Char)}
    (unbroken : c ≠ '\r' ∧ c ≠ '\n') (breaks : Breaks text (line :: others)) :
    Breaks (c :: text) ((c :: line) :: others) := by
  have body_unbroken {body : List Char} (rest : ∀ d ∈ body, d ≠ '\r' ∧ d ≠ '\n') :
      ∀ d ∈ c :: body, d ≠ '\r' ∧ d ≠ '\n' :=
    List.forall_mem_cons.mpr ⟨unbroken, rest⟩
  cases breaks with
  | last rest => exact .last (body_unbroken rest)
  | feed rest breaks => exact .feed (body_unbroken rest) breaks
  | carriageAndFeed rest breaks => exact .carriageAndFeed (body_unbroken rest) breaks
  | carriage rest alone breaks => exact .carriage (body_unbroken rest) alone breaks

theorem breaks_split (text : List Char) : Breaks text (split text) := by
  fun_induction split text with
  | case1 => exact .last (List.forall_mem_nil _)
  | case2 rest ih => exact .carriageAndFeed (List.forall_mem_nil _) ih
  | case3 c rest single broken ih =>
      rcases broken with rfl | rfl
      · refine .carriage (List.forall_mem_nil _) (fun next => ?_) ih
        obtain ⟨more, rfl⟩ := List.head?_eq_some_iff.mp next
        exact single more rfl rfl
      · exact .feed (List.forall_mem_nil _) ih
  | case4 c rest _ _ none_left ih => exact absurd none_left (split_ne_nil rest)
  | case5 c rest _ unbroken line others split_eq ih =>
      rw [split_eq] at ih
      exact ih.cons (not_or.mp unbroken)

/-- The number of characters before a row, the rows being counted from one. -/
def startOf (lines : List (List Char)) (row : Nat) : Nat :=
  (lines.take (row - 1)).flatten.length

/-- A place on one of some lines leads back to an offset. -/
structure Place.LeadsTo (place : Place) (lines : List (List Char)) (offset : Nat) : Prop where
  /-- Rows are counted from one. -/
  row_pos : 0 < place.row
  /-- The line is that of the row. -/
  line_eq : lines[place.row - 1]? = some place.line
  /-- The start of the row and the column make up the offset. -/
  start_add_column : startOf lines place.row + place.column = offset
  /-- All rows further down start behind it. -/
  lt_startOf : ∀ row, place.row < row → row ≤ lines.length → offset < startOf lines row

/-- Rows may be counted from any number. -/
theorem exists_index_of_locateFrom (first offset : Nat) {lines : List (List Char)}
    (nonempty : lines ≠ []) :
    ∃ index, (locateFrom first offset lines).row = first + index ∧
      lines[index]? = some (locateFrom first offset lines).line ∧
      (lines.take index).flatten.length + (locateFrom first offset lines).column = offset ∧
      ∀ later, index < later → later < lines.length →
        offset < (lines.take later).flatten.length := by
  fun_induction locateFrom first offset lines with
  | case1 => exact absurd rfl nonempty
  | case2 first offset line =>
      refine ⟨0, rfl, rfl, Nat.zero_add _, fun later after before => ?_⟩
      rw [List.length_singleton] at before
      omega
  | case3 first offset line next others within =>
      refine ⟨0, rfl, rfl, Nat.zero_add _, fun later after _ => ?_⟩
      obtain ⟨later, rfl⟩ := Nat.exists_eq_succ_of_ne_zero (Nat.ne_of_gt after)
      rw [List.take_succ_cons, List.flatten_cons, List.length_append]
      omega
  | case4 first offset line next others beyond ih =>
      obtain ⟨index, row_eq, line_eq, offset_eq, later_starts⟩ := ih (List.cons_ne_nil _ _)
      refine ⟨index + 1, ?_, line_eq, ?_, fun later after before => ?_⟩
      · rw [row_eq]
        omega
      · rw [List.take_succ_cons, List.flatten_cons, List.length_append]
        omega
      · obtain ⟨later, rfl⟩ := Nat.exists_eq_succ_of_ne_zero (Nat.ne_zero_of_lt after)
        have start_gt := later_starts later (Nat.lt_of_succ_lt_succ after)
          (Nat.lt_of_succ_lt_succ before)
        rw [List.take_succ_cons, List.flatten_cons, List.length_append]
        omega

theorem leadsTo_locate (text : String) (offset : Nat) :
    (locate text offset).LeadsTo (split text.toList) offset := by
  obtain ⟨index, row_eq, line_eq, offset_eq, later_starts⟩ :=
    exists_index_of_locateFrom 1 offset (split_ne_nil text.toList)
  change (locate text offset).row = 1 + index at row_eq
  have index_eq : (locate text offset).row - 1 = index := by omega
  refine ⟨by omega, index_eq ▸ line_eq, ?_, fun row after before => ?_⟩
  · rw [startOf, index_eq]
    exact offset_eq
  · exact later_starts (row - 1) (by omega) (by omega)

namespace Place.LeadsTo

variable {place : Place} {lines : List (List Char)} {offset : Nat}
  (leads : place.LeadsTo lines offset)
include leads

theorem flatten_take_row :
    (lines.take place.row).flatten = (lines.take (place.row - 1)).flatten ++ place.line := by
  have row_eq : place.row = place.row - 1 + 1 := (Nat.sub_add_cancel leads.row_pos).symm
  rw [row_eq, List.take_add_one, Nat.add_sub_cancel, leads.line_eq, List.flatten_append]
  simp

theorem startOf_succ :
    startOf lines (place.row + 1) = startOf lines place.row + place.line.length := by
  rw [startOf, startOf, Nat.add_sub_cancel, leads.flatten_take_row, List.length_append]

theorem row_le : place.row ≤ lines.length := by
  obtain ⟨within, -⟩ := List.getElem?_eq_some_iff.mp leads.line_eq
  have row_pos := leads.row_pos
  omega

omit leads in
/-- Below the last row there is nothing. -/
theorem startOf_succ_of_last (last : lines.length ≤ place.row) :
    startOf lines (place.row + 1) = lines.flatten.length := by
  rw [startOf, Nat.add_sub_cancel, List.take_of_length_le last]

/-- A place before the end of the text is a place before the end of its line. -/
theorem column_lt (inside : offset < lines.flatten.length) : place.column < place.line.length := by
  have before_next : offset < startOf lines (place.row + 1) := by
    rcases Nat.lt_or_ge place.row lines.length with more | last
    · exact leads.lt_startOf _ (Nat.lt_succ_self _) more
    · rwa [startOf_succ_of_last last]
  rw [leads.startOf_succ, ← leads.start_add_column] at before_next
  exact Nat.lt_of_add_lt_add_left before_next

/-- The character at the place is the one that the offset counts to. -/
theorem getElem?_column (inside : offset < lines.flatten.length) :
    place.line[place.column]? = lines.flatten[offset]? := by
  have column_lt := leads.column_lt inside
  have offset_eq := leads.start_add_column
  have split_eq : lines.flatten =
      (lines.take (place.row - 1)).flatten ++ place.line ++ (lines.drop place.row).flatten := by
    rw [← leads.flatten_take_row, ← List.flatten_append, List.take_append_drop]
  rw [startOf] at offset_eq
  rw [split_eq, List.append_assoc, List.getElem?_append_right (by omega),
    List.getElem?_append_left (by omega)]
  exact congrArg (place.line[·]?) (by omega)

/-- The end of the text is found at the end of the last line. -/
theorem last_of_end (ended : offset = lines.flatten.length) :
    place.row = lines.length ∧ place.column = place.line.length := by
  have last : lines.length ≤ place.row := by
    refine Nat.le_of_not_lt fun more => ?_
    have before_next := leads.lt_startOf (place.row + 1) (Nat.lt_succ_self _) more
    have whole := congrArg (List.length ∘ List.flatten) (List.take_append_drop place.row lines)
    simp only [Function.comp, List.flatten_append, List.length_append] at whole
    rw [startOf, Nat.add_sub_cancel] at before_next
    omega
  have offset_eq := leads.start_add_column
  have next_eq := leads.startOf_succ
  rw [startOf_succ_of_last last] at next_eq
  exact ⟨Nat.le_antisymm leads.row_le last, by omega⟩

end Place.LeadsTo
end Line
end MarmosetLang
