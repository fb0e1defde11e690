import MarmosetLang.Builtin.Apply
import MarmosetLang.Operation
import MarmosetLang.Proofs.Tree.Relocation
import Mathlib.Data.List.Forall2
import Mathlib.Logic.Relator

/-!
# Alike values

Two values are alike if they have the same shape and the same content, up to the serial numbers of
values, the scopes of functions and the places of tokens.  Programs cannot tell alike values apart:
they are displayed alike, and whatever is done with them comes to alike values again, as long as
different serial numbers stand for different ones.
-/

namespace MarmosetLang

/-- Entries in the same slot with related keys and related values. -/
structure Entry.Paired {α β : Type} (related : α → β → Prop) (entry : Entry α) (other : Entry β) :
    Prop where
  /-- Both fill the same slot. -/
  slot_eq : entry.slot = other.slot
  /-- The keys are related. -/
  key : related entry.key other.key
  /-- The values are related. -/
  value : related entry.value other.value

namespace Value

/-- Two values are alike, given which serial numbers and which scopes stand for which, and how
tokens are moved. -/
inductive Alike (serials : Nat → Nat → Prop) (scopes : ScopeId → ScopeId → Prop)
    (move : Nat → Nat) : Value → Value → Prop where
  | integer {serial other : Nat} {number : Int} (paired : serials serial other) :
      Alike serials scopes move (.integer serial number) (.integer other number)
  | boolean {truth : Bool} : Alike serials scopes move (.boolean truth) (.boolean truth)
  | null : Alike serials scopes move .null .null
  | string {serial other : Nat} {text : String} (paired : serials serial other) :
      Alike serials scopes move (.string serial text) (.string other text)
  | array {serial other : Nat} {elements others : List Value} (paired : serials serial other)
      (length_eq : elements.length = others.length)
      (each : ∀ pair ∈ elements.zip others, Alike serials scopes move pair.1 pair.2) :
      Alike serials scopes move (.array serial elements) (.array other others)
  | hash {serial other : Nat} {entries others : List (Entry Value)}
      (paired : serials serial other) (length_eq : entries.length = others.length)
      (slots : ∀ pair ∈ entries.zip others, pair.1.slot = pair.2.slot)
      (keys : ∀ pair ∈ entries.zip others, Alike serials scopes move pair.1.key pair.2.key)
      (values : ∀ pair ∈ entries.zip others, Alike serials scopes move pair.1.value pair.2.value) :
      Alike serials scopes move (.hash serial entries) (.hash other others)
  | function {serial other : Nat} {parameters : List String} {body : Block}
      {scope place : ScopeId} (paired : serials serial other) (captured : scopes scope place) :
      Alike serials scopes move (.function serial parameters body scope)
        (.function other parameters (body.relocate move) place)
  | builtin {which : Builtin} : Alike serials scopes move (.builtin which) (.builtin which)
  | returned {serial other : Nat} {value copy : Value} (paired : serials serial other)
      (alike : Alike serials scopes move value copy) :
      Alike serials scopes move (.returned serial value) (.returned other copy)
  | error {serial other : Nat} {mistake : Mistake} (paired : serials serial other) :
      Alike serials scopes move (.error serial mistake) (.error other mistake)

namespace Alike

variable {serials more : Nat → Nat → Prop} {scopes wider : ScopeId → ScopeId → Prop}
  {move : Nat → Nat} {value copy : Value} {serial other : Nat}

theorem mono (alike : Alike serials scopes move value copy)
    (serials_le : ∀ serial other, serials serial other → more serial other)
    (scopes_le : ∀ scope place, scopes scope place → wider scope place) :
    Alike more wider move value copy := by
  induction alike with
  | integer paired => exact .integer (serials_le _ _ paired)
  | boolean => exact .boolean
  | null => exact .null
  | string paired => exact .string (serials_le _ _ paired)
  | array paired length_eq _ each => exact .array (serials_le _ _ paired) length_eq each
  | hash paired length_eq slots _ _ keys values =>
      exact .hash (serials_le _ _ paired) length_eq slots keys values
  | function paired captured =>
      exact .function (serials_le _ _ paired) (scopes_le _ _ captured)
  | builtin => exact .builtin
  | returned paired _ alike => exact .returned (serials_le _ _ paired) alike
  | error paired => exact .error (serials_le _ _ paired)

/-! ## Rows and entries -/

theorem ofElements {elements others : List Value} (paired : serials serial other)
    (each : List.Forall₂ (Alike serials scopes move) elements others) :
    Alike serials scopes move (.array serial elements) (.array other others) := by
  obtain ⟨length_eq, each⟩ := List.forall₂_iff_zip.mp each
  exact .array paired length_eq fun _ member => each member

theorem ofEntries {entries others : List (Entry Value)} (paired : serials serial other)
    (each : List.Forall₂ (Entry.Paired (Alike serials scopes move)) entries others) :
    Alike serials scopes move (.hash serial entries) (.hash other others) := by
  obtain ⟨length_eq, each⟩ := List.forall₂_iff_zip.mp each
  exact .hash paired length_eq (fun _ member => (each member).slot_eq)
    (fun _ member => (each member).key) fun _ member => (each member).value

theorem elements {elements others : List Value}
    (alike : Alike serials scopes move (.array serial elements) (.array other others)) :
    List.Forall₂ (Alike serials scopes move) elements others := by
  cases alike with
  | array _ length_eq each =>
      exact List.forall₂_iff_zip.mpr ⟨length_eq, fun member => each _ member⟩

theorem entries {entries others : List (Entry Value)}
    (alike : Alike serials scopes move (.hash serial entries) (.hash other others)) :
    List.Forall₂ (Entry.Paired (Alike serials scopes move)) entries others := by
  cases alike with
  | hash _ length_eq slots keys values =>
      refine List.forall₂_iff_zip.mpr ⟨length_eq, fun member => ?_⟩
      exact ⟨slots _ member, keys _ member, values _ member⟩

/-! ## What programs can see -/

theorem tag_eq (alike : Alike serials scopes move value copy) : value.tag = copy.tag := by
  cases alike <;> rfl

theorem isSignal_eq (alike : Alike serials scopes move value copy) :
    value.isSignal = copy.isSignal := by
  cases alike <;> rfl

theorem isTruthy_eq (alike : Alike serials scopes move value copy) :
    value.isTruthy = copy.isTruthy := by
  cases alike <;> rfl

theorem slot?_eq (alike : Alike serials scopes move value copy) : value.slot? = copy.slot? := by
  cases alike <;> rfl

theorem unwrap (alike : Alike serials scopes move value copy) :
    Alike serials scopes move value.unwrap copy.unwrap := by
  cases alike with
  | returned _ alike => exact alike
  | integer paired => exact .integer paired
  | boolean => exact .boolean
  | null => exact .null
  | string paired => exact .string paired
  | array paired length_eq each => exact .array paired length_eq each
  | hash paired length_eq slots keys values => exact .hash paired length_eq slots keys values
  | function paired captured => exact .function paired captured
  | builtin => exact .builtin
  | error paired => exact .error paired

end Alike

theorem renderEach_eq_map (values : List Value) : renderEach values = values.map render := by
  induction values with
  | nil => rw [renderEach, List.map_nil]
  | cons first rest ih => rw [renderEach, List.map_cons, ih]

theorem renderEntries_eq_map (entries : List (Entry Value)) :
    renderEntries entries =
      entries.map fun entry => entry.key.render ++ ": " ++ entry.value.render := by
  induction entries with
  | nil => rw [renderEntries, List.map_nil]
  | cons first rest ih => rw [renderEntries, List.map_cons, ih]

theorem map_eq_of_zip {α β γ : Type} {shown : α → γ} {seen : β → γ} {left : List α}
    {right : List β} (length_eq : left.length = right.length)
    (each : ∀ pair ∈ left.zip right, shown pair.1 = seen pair.2) :
    left.map shown = right.map seen := by
  induction left generalizing right with
  | nil => cases right with
    | nil => rfl
    | cons => exact nomatch length_eq
  | cons first rest ih => cases right with
    | nil => exact nomatch length_eq
    | cons other others =>
        rw [List.zip_cons_cons, List.forall_mem_cons] at each
        rw [List.map_cons, List.map_cons, ih (Nat.succ.inj length_eq) each.2]
        exact congrArg (· :: _) each.1

namespace Alike

variable {serials : Nat → Nat → Prop} {scopes : ScopeId → ScopeId → Prop}
  {move : Nat → Nat} {value copy : Value} {serial other : Nat}

theorem render_eq (alike : Alike serials scopes move value copy) : value.render = copy.render := by
  induction alike with
  | integer | boolean | null | string | builtin | error => simp only [render]
  | array _ length_eq _ each =>
      simp only [render, renderEach_eq_map, map_eq_of_zip length_eq each]
  | @hash _ _ entries others _ length_eq _ _ _ keys values =>
      have shown_eq : renderEntries entries = renderEntries others := by
        rw [renderEntries_eq_map, renderEntries_eq_map]
        refine map_eq_of_zip length_eq fun pair member => ?_
        rw [keys pair member, values pair member]
      simp only [render, shown_eq]
  | function => simp only [render, Block.render_relocate]
  | returned _ _ alike => simp only [render, alike]

/-- Alike values are told from each other in the same way, if different serial numbers stand for
different ones. -/
theorem same_eq {left right left_copy right_copy : Value}
    (left_alike : Alike serials scopes move left left_copy)
    (right_alike : Alike serials scopes move right right_copy)
    (one_to_one : Relator.BiUnique serials) : left.same right = left_copy.same right_copy := by
  have same_iff {serial other serial_copy other_copy : Nat} (paired : serials serial serial_copy)
      (other_paired : serials other other_copy) : serial = other ↔ serial_copy = other_copy :=
    Relator.rel_eq one_to_one paired other_paired
  cases left_alike <;> cases right_alike <;> simp [same, tag, serial?] <;> apply same_iff <;>
    assumption

/-- Where nothing stands for anything else, alike values are equal. -/
theorem eq (alike : Alike serials scopes id value copy)
    (serials_eq : ∀ serial other, serials serial other → serial = other)
    (scopes_eq : ∀ scope place, scopes scope place → scope = place) : value = copy := by
  induction alike with
  | integer paired => rw [serials_eq _ _ paired]
  | boolean | null | builtin => rfl
  | string paired => rw [serials_eq _ _ paired]
  | @array _ _ elements others paired length_eq _ each =>
      have elements_eq : elements.map id = others.map id := map_eq_of_zip length_eq each
      rw [List.map_id, List.map_id] at elements_eq
      rw [serials_eq _ _ paired, elements_eq]
  | @hash _ _ entries others paired length_eq slots _ _ keys values =>
      have entries_eq : entries.map id = others.map id := by
        refine map_eq_of_zip length_eq fun pair member => ?_
        have slot_eq := slots pair member
        have key_eq := keys pair member
        have value_eq := values pair member
        obtain ⟨⟨_, _, _⟩, ⟨_, _, _⟩⟩ := pair
        simp_all
      rw [List.map_id, List.map_id] at entries_eq
      rw [serials_eq _ _ paired, entries_eq]
  | function paired captured =>
      rw [serials_eq _ _ paired, scopes_eq _ _ captured, Block.relocate_id]
  | returned paired _ alike => rw [serials_eq _ _ paired, alike]
  | error paired => rw [serials_eq _ _ paired]

end Alike

/-- Rows of alike values. -/
abbrev AlikeEach (serials : Nat → Nat → Prop) (scopes : ScopeId → ScopeId → Prop)
    (move : Nat → Nat) : List Value → List Value → Prop :=
  List.Forall₂ (Alike serials scopes move)

end Value

/-! ## Operations -/

section

open Value

variable {serials : Nat → Nat → Prop} {scopes : ScopeId → ScopeId → Prop} {move : Nat → Nat}
  {value copy : Value} {serial other : Nat}

theorem Dictionary.paired_insert {α β : Type} {related : α → β → Prop} {entries : List (Entry α)}
    {others : List (Entry β)} {entry : Entry α} {copy : Entry β}
    (each : List.Forall₂ (Entry.Paired related) entries others)
    (new : Entry.Paired related entry copy) :
    List.Forall₂ (Entry.Paired related) (Dictionary.insert entries entry)
      (Dictionary.insert others copy) := by
  induction each with
  | nil => exact .cons new .nil
  | @cons first other rest others first_paired rest_paired ih =>
      simp only [Dictionary.insert, first_paired.slot_eq, new.slot_eq]
      split
      · exact .cons new rest_paired
      · exact .cons first_paired ih

namespace Operation

theorem alike_applyPrefix (alike : Alike serials scopes move value copy)
    (paired : serials serial other) (operator : String) :
    Alike serials scopes move (applyPrefix serial operator value)
      (applyPrefix other operator copy) := by
  unfold applyPrefix
  rw [alike.isTruthy_eq, alike.tag_eq]
  split
  · exact .boolean
  · split
    · cases alike with
      | integer => exact .integer paired
      | _ => exact .error paired
    · exact .error paired

theorem alike_applyIntegers (paired : serials serial other) (operator : String)
    (left right : Int) :
    Alike serials scopes move (applyIntegers serial operator left right)
      (applyIntegers other operator left right) := by
  unfold applyIntegers
  split
  case h_8 =>
    split
    · exact .error paired
    · exact .integer paired
  case h_9 => exact .error paired
  all_goals first | exact .boolean | exact .integer paired

theorem alike_applyStrings (paired : serials serial other) (operator left right : String) :
    Alike serials scopes move (applyStrings serial operator left right)
      (applyStrings other operator left right) := by
  unfold applyStrings
  split
  case h_6 => exact .error paired
  all_goals first | exact .boolean | exact .string paired

variable {left right left_copy right_copy : Value}

theorem alike_applyOthers (one_to_one : Relator.BiUnique serials)
    (left_alike : Alike serials scopes move left left_copy)
    (right_alike : Alike serials scopes move right right_copy) (paired : serials serial other)
    (operator : String) :
    Alike serials scopes move (applyOthers serial operator left right)
      (applyOthers other operator left_copy right_copy) := by
  unfold applyOthers
  rw [left_alike.same_eq right_alike one_to_one, left_alike.tag_eq, right_alike.tag_eq]
  split
  · exact .boolean
  · split
    · exact .boolean
    · split
      · exact .error paired
      · exact .error paired

theorem alike_applyInfix (one_to_one : Relator.BiUnique serials)
    (left_alike : Alike serials scopes move left left_copy)
    (right_alike : Alike serials scopes move right right_copy) (paired : serials serial other)
    (operator : String) :
    Alike serials scopes move (applyInfix serial operator left right)
      (applyInfix other operator left_copy right_copy) := by
  have others := alike_applyOthers one_to_one left_alike right_alike paired operator
  cases left_alike with
  | integer =>
      cases right_alike with
      | integer => exact alike_applyIntegers paired operator _ _
      | _ => exact others
  | string =>
      cases right_alike with
      | string => exact alike_applyStrings paired operator _ _
      | _ => exact others
  | _ => exact others

theorem alike_elementAt {elements others : List Value}
    (each : AlikeEach serials scopes move elements others) (distance : Int) :
    Alike serials scopes move (elementAt elements distance) (elementAt others distance) := by
  cases distance with
  | negSucc distance => exact .null
  | ofNat distance =>
      change Alike serials scopes move (elements.getD distance .null) (others.getD distance .null)
      induction each generalizing distance with
      | nil => exact .null
      | cons first _ ih =>
          cases distance with
          | zero => exact first
          | succ distance => exact ih distance

theorem alike_valueAt {entries others : List (Entry Value)}
    (each : List.Forall₂ (Entry.Paired (Alike serials scopes move)) entries others) (slot : Slot) :
    Alike serials scopes move (valueAt entries slot) (valueAt others slot) := by
  unfold valueAt Dictionary.find?
  induction each with
  | nil => exact .null
  | @cons entry copy _ _ first _ ih =>
      rw [List.find?_cons, List.find?_cons, first.slot_eq]
      cases decide (copy.slot = slot) with
      | true => exact first.value
      | false => exact ih

theorem alike_select (left_alike : Alike serials scopes move left left_copy)
    (right_alike : Alike serials scopes move right right_copy) (paired : serials serial other) :
    Alike serials scopes move (select serial left right)
      (select other left_copy right_copy) := by
  cases left_alike with
  | array array_paired length_eq each =>
      cases right_alike with
      | integer => exact alike_elementAt (Alike.array array_paired length_eq each).elements _
      | _ => exact .error paired
  | hash hash_paired length_eq slots keys values =>
      unfold select
      simp only
      rw [right_alike.slot?_eq, right_alike.tag_eq]
      split
      · exact alike_valueAt (Alike.hash hash_paired length_eq slots keys values).entries _
      · exact .error paired
  | _ => exact .error paired

end Operation

namespace Builtin

theorem alike_length (alike : Alike serials scopes move value copy)
    (paired : serials serial other) :
    Alike serials scopes move (length serial value) (length other copy) := by
  cases alike with
  | string => exact .integer paired
  | array _ length_eq =>
      simp only [length, length_eq]
      exact .integer paired
  | _ => exact .error paired

theorem alike_onArray {operation again : List Value → Value}
    (alike : Alike serials scopes move value copy) (paired : serials serial other)
    (builtin : Builtin)
    (keeps : ∀ elements others : List Value, AlikeEach serials scopes move elements others →
      Alike serials scopes move (operation elements) (again others)) :
    Alike serials scopes move (onArray serial builtin value operation)
      (onArray other builtin copy again) := by
  cases alike with
  | array array_paired length_eq each =>
      exact keeps _ _ (Alike.array array_paired length_eq each).elements
  | _ => exact .error paired

theorem alike_headD {elements others : List Value}
    (each : AlikeEach serials scopes move elements others) :
    Alike serials scopes move (elements.headD .null) (others.headD .null) := by
  cases each with
  | nil => exact .null
  | cons first => exact first

theorem alike_getLastD {elements others : List Value}
    (each : AlikeEach serials scopes move elements others)
    (empty : Alike serials scopes move value copy) :
    Alike serials scopes move (elements.getLastD value) (others.getLastD copy) := by
  induction each generalizing value copy with
  | nil => exact empty
  | cons first _ ih =>
      rw [List.getLastD_cons, List.getLastD_cons]
      exact ih first

theorem alike_withoutFirst {elements others : List Value}
    (each : AlikeEach serials scopes move elements others) (paired : serials serial other) :
    Alike serials scopes move (withoutFirst serial elements) (withoutFirst other others) := by
  cases each with
  | nil => exact .null
  | cons _ rest => exact .ofElements paired rest

theorem alike_wrongArity {arguments copies : List Value}
    (each : AlikeEach serials scopes move arguments copies) (paired : serials serial other)
    (want : Nat) :
    Alike serials scopes move (.error serial (.wrongArity arguments.length want))
      (.error other (.wrongArity copies.length want)) := by
  rw [each.length_eq]
  exact .error paired

/-- Builtin functions return alike values for alike arguments. -/
theorem alike_result {arguments copies : List Value}
    (each : AlikeEach serials scopes move arguments copies) (paired : serials serial other)
    (builtin : Builtin) :
    Alike serials scopes move (result serial builtin arguments)
      (result other builtin copies) := by
  have wrong := alike_wrongArity each paired
  cases each with
  | nil =>
      cases builtin with
      | print => exact .null
      | push => exact wrong 2
      | _ => exact wrong 1
  | cons first rest =>
      cases rest with
      | nil =>
          cases builtin with
          | len => exact alike_length first paired
          | first => exact alike_onArray first paired .first fun _ _ => alike_headD
          | last => exact alike_onArray first paired .last fun _ _ each => alike_getLastD each .null
          | rest =>
              exact alike_onArray first paired .rest fun _ _ each => alike_withoutFirst each paired
          | push => exact wrong 2
          | print => exact .null
      | cons second others =>
          cases builtin with
          | push =>
              cases others with
              | nil =>
                  refine alike_onArray first paired .push fun elements others each => ?_
                  exact .ofElements paired (List.rel_append each (.cons second .nil))
              | cons => exact wrong 2
          | print => exact .null
          | _ => exact wrong 1

theorem lines_eq {arguments copies : List Value}
    (each : AlikeEach serials scopes move arguments copies) (builtin : Builtin) :
    lines builtin arguments = lines builtin copies := by
  obtain ⟨length_eq, each⟩ := List.forall₂_iff_zip.mp each
  have shown_eq := map_eq_of_zip length_eq fun _ member => (each member).render_eq
  cases builtin with
  | print => exact shown_eq
  | _ => rfl

end Builtin
end
end MarmosetLang
