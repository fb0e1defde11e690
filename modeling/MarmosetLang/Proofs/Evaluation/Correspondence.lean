import MarmosetLang.Proofs.Evaluation.Frame

/-!
# Correspondence

Evaluation depends on nothing but what can be reached.  A correspondence says which scopes and which
serial numbers of one store stand for which of another one.  Two stores correspond if whatever can
be reached from scopes that stand for each other does so as well.  Evaluation then comes to the same
end on both sides: it finishes on both or on neither, with answers that look the same and the same
text printed, and it leaves stores that correspond again.
-/

namespace MarmosetLang

/-- Which scopes and which serial numbers stand for which, each for one only. -/
structure Correspondence where
  /-- Which scopes stand for which. -/
  scopes : ScopeId → ScopeId → Prop
  /-- Which serial numbers stand for which. -/
  serials : Nat → Nat → Prop
  /-- A scope stands for one scope only. -/
  one_to_one : Relator.BiUnique scopes
  /-- A serial number stands for one serial number only. -/
  serials_one_to_one : Relator.BiUnique serials

/-- Two more things may stand for each other if they stood for nothing before. -/
theorem biUnique_or {α β : Type} {related : α → β → Prop} (one_to_one : Relator.BiUnique related)
    {left : α} {right : β} (new_left : ∀ other, ¬ related left other)
    (new_right : ∀ other, ¬ related other right) :
    Relator.BiUnique fun first second => related first second ∨ first = left ∧ second = right := by
  constructor
  · rintro first second third (old | ⟨rfl, rfl⟩) (other_old | ⟨rfl, same⟩)
    · exact one_to_one.1 old other_old
    · exact absurd (same ▸ old) (new_right first)
    · exact absurd other_old (new_right second)
    · rfl
  · rintro first second third (old | ⟨rfl, rfl⟩) (other_old | ⟨same, rfl⟩)
    · exact one_to_one.2 old other_old
    · exact absurd (same ▸ old) (new_left second)
    · exact absurd other_old (new_left third)
    · rfl

namespace Correspondence

variable {pairing larger : Correspondence} {store copy : Store} {scope place : ScopeId}

/-- A correspondence extends another one if what stood for each other still does. -/
instance : LE Correspondence where
  le smaller larger :=
    (∀ scope place, smaller.scopes scope place → larger.scopes scope place) ∧
      ∀ serial other, smaller.serials serial other → larger.serials serial other

theorem le_refl (pairing : Correspondence) : pairing ≤ pairing :=
  ⟨fun _ _ => id, fun _ _ => id⟩

theorem le_trans {first second third : Correspondence} (le : first ≤ second)
    (more : second ≤ third) : first ≤ third :=
  ⟨fun _ _ placed => more.1 _ _ (le.1 _ _ placed), fun _ _ paired => more.2 _ _ (le.2 _ _ paired)⟩

/-- Values correspond if they have the same shape and content, with scopes and serial numbers that
stand for each other. -/
abbrev Values (pairing : Correspondence) : Value → Value → Prop :=
  Value.Alike pairing.serials pairing.scopes id

theorem Values.mono {value other : Value} (values : pairing.Values value other)
    (le : pairing ≤ larger) : larger.Values value other :=
  Value.Alike.mono values le.2 le.1

/-- The content of two scopes corresponds. -/
structure Paired (pairing : Correspondence) (scope place : ScopeId) (found other : Scope) :
    Prop where
  /-- The scopes around them stand for each other, and looking outwards goes on on both sides or on
  neither. -/
  outer : Option.Rel
    (fun around beyond => pairing.scopes around beyond ∧ (around < scope ↔ beyond < place))
    found.outer other.outer
  /-- The same names are bound, and to values that correspond. -/
  bound : ∀ name, Option.Rel pairing.Values (found.find? name) (other.find? name)

/-- What can be reached in two stores from scopes that stand for each other corresponds. -/
structure Stores (pairing : Correspondence) (store copy : Store) : Prop where
  /-- Scopes that stand for each other are open and have content that corresponds. -/
  scopes : ∀ scope place, pairing.scopes scope place →
    ∃ found other, store.scopes[scope]? = some found ∧ copy.scopes[place]? = some other ∧
      pairing.Paired scope place found other
  /-- Serial numbers that stand for each other have been given out. -/
  serials : ∀ serial other, pairing.serials serial other → serial < store.made ∧ other < copy.made

theorem Paired.mono {found other : Scope} (paired : pairing.Paired scope place found other)
    (le : pairing ≤ larger) : larger.Paired scope place found other where
  outer := by
    have outer := paired.outer
    generalize found.outer = around at outer
    generalize other.outer = beyond at outer
    cases outer with
    | none => exact .none
    | some related => exact .some ⟨le.1 _ _ related.1, related.2⟩
  bound name := by
    have bound := paired.bound name
    generalize found.find? name = value at bound
    generalize other.find? name = other_value at bound
    cases bound with
    | none => exact .none
    | some values => exact .some (values.mono le)

/-! ## Steps -/

/-- Two serial numbers that have not been given out may stand for each other. -/
def withSerials (pairing : Correspondence) (serial other : Nat)
    (new : ∀ third, ¬ pairing.serials serial third)
    (new_other : ∀ third, ¬ pairing.serials third other) : Correspondence where
  scopes := pairing.scopes
  serials first second := pairing.serials first second ∨ first = serial ∧ second = other
  one_to_one := pairing.one_to_one
  serials_one_to_one := biUnique_or pairing.serials_one_to_one new new_other

/-- Two scopes that have not been opened may stand for each other. -/
def withScopes (pairing : Correspondence) (scope place : ScopeId)
    (new : ∀ third, ¬ pairing.scopes scope third)
    (new_other : ∀ third, ¬ pairing.scopes third place) : Correspondence where
  scopes first second := pairing.scopes first second ∨ first = scope ∧ second = place
  serials := pairing.serials
  one_to_one := biUnique_or pairing.one_to_one new new_other
  serials_one_to_one := pairing.serials_one_to_one

namespace Stores

theorem scope_lt (stores : pairing.Stores store copy) (placed : pairing.scopes scope place) :
    scope < store.scopes.size ∧ place < copy.scopes.size := by
  obtain ⟨found, other, found_eq, other_eq, -⟩ := stores.scopes scope place placed
  obtain ⟨opened, -⟩ := Array.getElem?_eq_some_iff.mp found_eq
  obtain ⟨other_opened, -⟩ := Array.getElem?_eq_some_iff.mp other_eq
  exact ⟨opened, other_opened⟩

theorem of_scopes_eq {later later_copy : Store} (stores : pairing.Stores store copy)
    (scopes_eq : later.scopes = store.scopes) (copy_eq : later_copy.scopes = copy.scopes)
    (made_le : store.made ≤ later.made) (copy_le : copy.made ≤ later_copy.made) :
    pairing.Stores later later_copy where
  scopes scope place placed := by
    rw [scopes_eq, copy_eq]
    exact stores.scopes scope place placed
  serials serial other paired := by
    have made := stores.serials serial other paired
    exact ⟨Nat.lt_of_lt_of_le made.1 made_le, Nat.lt_of_lt_of_le made.2 copy_le⟩

theorem fresh (stores : pairing.Stores store copy) :
    ∃ larger, pairing ≤ larger ∧ larger.serials store.fresh.1 copy.fresh.1 ∧
      larger.Stores store.fresh.2 copy.fresh.2 := by
  have new (third : Nat) : ¬ pairing.serials store.made third := fun paired =>
    Nat.lt_irrefl _ (stores.serials _ _ paired).1
  have new_other (third : Nat) : ¬ pairing.serials third copy.made := fun paired =>
    Nat.lt_irrefl _ (stores.serials _ _ paired).2
  have le : pairing ≤ pairing.withSerials store.made copy.made new new_other :=
    ⟨fun _ _ => id, fun _ _ => .inl⟩
  refine ⟨_, le, .inr ⟨rfl, rfl⟩, fun scope place placed => ?_, fun serial other paired => ?_⟩
  · obtain ⟨found, other, found_eq, other_eq, paired⟩ := stores.scopes scope place placed
    exact ⟨found, other, found_eq, other_eq, paired.mono le⟩
  · change serial < store.made + 1 ∧ other < copy.made + 1
    rcases paired with old | ⟨rfl, rfl⟩
    · have made := stores.serials serial other old
      exact ⟨Nat.lt_succ_of_lt made.1, Nat.lt_succ_of_lt made.2⟩
    · exact ⟨Nat.lt_succ_self _, Nat.lt_succ_self _⟩

theorem enclose (stores : pairing.Stores store copy) {outer around : Option ScopeId}
    (captured : Option.Rel pairing.scopes outer around) :
    ∃ larger, pairing ≤ larger ∧ larger.scopes (store.enclose outer).1 (copy.enclose around).1 ∧
      larger.Stores (store.enclose outer).2 (copy.enclose around).2 := by
  have new (third : ScopeId) : ¬ pairing.scopes store.scopes.size third := fun placed =>
    Nat.lt_irrefl _ (stores.scope_lt placed).1
  have new_other (third : ScopeId) : ¬ pairing.scopes third copy.scopes.size := fun placed =>
    Nat.lt_irrefl _ (stores.scope_lt placed).2
  have le : pairing ≤ pairing.withScopes store.scopes.size copy.scopes.size new new_other :=
    ⟨fun _ _ => .inl, fun _ _ => id⟩
  refine ⟨_, le, .inr ⟨rfl, rfl⟩, fun scope place placed => ?_, stores.serials⟩
  rcases placed with old | ⟨rfl, rfl⟩
  · obtain ⟨found, other, found_eq, other_eq, paired⟩ := stores.scopes scope place old
    obtain ⟨opened, other_opened⟩ := stores.scope_lt old
    refine ⟨found, other, ?_, ?_, paired.mono le⟩
    · rwa [Store.getElem?_enclose, if_neg (Nat.ne_of_lt opened)]
    · rwa [Store.getElem?_enclose, if_neg (Nat.ne_of_lt other_opened)]
  · refine ⟨⟨outer, []⟩, ⟨around, []⟩, ?_, ?_, ?_, fun name => .none⟩
    · rw [Store.getElem?_enclose, if_pos rfl]
    · rw [Store.getElem?_enclose, if_pos rfl]
    · cases captured with
      | none => exact .none
      | some captured =>
          obtain ⟨opened, other_opened⟩ := stores.scope_lt captured
          exact .some ⟨.inl captured, iff_of_true opened other_opened⟩

theorem bind (stores : pairing.Stores store copy) (placed : pairing.scopes scope place)
    {value other : Value} (values : pairing.Values value other) (name : String) :
    pairing.Stores (store.bind scope name value) (copy.bind place name other) where
  serials := stores.serials
  scopes third fourth both := by
    obtain ⟨found, found_copy, found_eq, copy_eq, paired⟩ := stores.scopes third fourth both
    have same : scope = third ↔ place = fourth := Relator.rel_eq pairing.one_to_one placed both
    rw [Store.getElem?_bind, Store.getElem?_bind, found_eq, copy_eq]
    by_cases here : scope = third
    · rw [if_pos here, if_pos (same.mp here)]
      refine ⟨_, _, rfl, rfl, paired.outer, fun bound => ?_⟩
      by_cases again : name = bound
      · rw [← again, Scope.find?_bind_self, Scope.find?_bind_self]
        exact .some values
      · rw [Scope.find?_bind_of_ne _ again, Scope.find?_bind_of_ne _ again]
        exact paired.bound bound
    · rw [if_neg here, if_neg (mt same.mpr here)]
      exact ⟨found, found_copy, rfl, rfl, paired⟩

/-- Looking a name up comes to values that correspond, or to none on either side. -/
theorem lookup (stores : pairing.Stores store copy) (placed : pairing.scopes scope place)
    (name : String) :
    Option.Rel pairing.Values (store.lookup name scope) (copy.lookup name place) := by
  induction scope using Nat.strongRecOn generalizing place with
  | ind scope ih =>
      obtain ⟨found, other, found_eq, other_eq, paired⟩ := stores.scopes scope place placed
      rw [Store.lookup.eq_def store name scope, Store.lookup.eq_def copy name place, found_eq,
        other_eq]
      have bound := paired.bound name
      have outer := paired.outer
      dsimp only
      generalize found.find? name = value at bound
      generalize other.find? name = other_value at bound
      cases bound with
      | some values => exact .some values
      | none =>
          dsimp only
          generalize found.outer = around at outer
          generalize other.outer = beyond at outer
          cases outer with
          | none => exact .none
          | @some around beyond related =>
              obtain ⟨around_placed, goes_on⟩ := related
              by_cases earlier : around < scope
              · simp only [earlier, goes_on.mp earlier, if_true]
                exact ih around earlier around_placed
              · simp only [earlier, mt goes_on.mpr earlier, if_false]
                exact .none

end Stores

/-- Two sides in step.  What stands for each other still does later on, and the same text has been
printed since the two sides had printed `start` and `other_start`. -/
def tandem (start other_start : String) : Tandem where
  World := Correspondence
  move := id
  serials pairing := pairing.serials
  scopes pairing := pairing.scopes
  Stores pairing store copy := pairing.Stores store copy ∧
    ∃ text, store.output = start ++ text ∧ copy.output = other_start ++ text
  Grows _ smaller larger := smaller ≤ larger
  grows_refl _ := le_refl
  grows_trans := le_trans
  serials_mono le := le.2 _ _
  scopes_mono le := le.1 _ _
  one_to_one pairing := pairing.serials_one_to_one
  fresh := by
    rintro pairing store copy ⟨stores, printed⟩ _
    obtain ⟨larger, le, paired, later_stores⟩ := stores.fresh
    exact ⟨larger, le, paired, later_stores, printed⟩
  enclose := by
    rintro pairing store copy outer place ⟨stores, printed⟩ captured
    obtain ⟨larger, le, placed, later_stores⟩ := stores.enclose (.some captured)
    exact ⟨larger, placed, ⟨later_stores, printed⟩, fun _ _ more => le_trans le more⟩
  bind := by
    rintro pairing store copy scope place value other ⟨stores, printed⟩ placed alike name
    exact ⟨pairing, le_refl _, stores.bind placed alike name, printed⟩
  lookup := by
    rintro pairing store copy scope place ⟨stores, -⟩ placed name
    exact stores.lookup placed name
  print := by
    rintro pairing store copy ⟨stores, text, output_eq, copy_eq⟩ _ line
    refine ⟨pairing, le_refl _, stores.of_scopes_eq rfl rfl (Nat.le_refl _) (Nat.le_refl _),
      text ++ line ++ "\n", ?_, ?_⟩
    · simp [Store.print, output_eq, String.append_assoc]
    · simp [Store.print, copy_eq, String.append_assoc]

end Correspondence
end MarmosetLang
