import MarmosetLang.Evaluation
import Mathlib.Logic.Relation

/-!
# Signals travel straight up

Evaluation enters the parts of a construct one after another.  `Enters outer inner` says that it
comes to a part after all those before it have finished without a signal, and in what store.  If the
part then yields a signal, the whole construct yields the same signal in the same store, at any
depth of nesting, so that nothing after the part is ever done.
-/

namespace MarmosetLang
namespace Evaluation

variable {depth : Nat} {scope : ScopeId} {store middle later final : Store} {signal : Value}

/-! ## What has been passed -/

/-- Expressions finish one after another with values that are no signals. -/
inductive Collected (depth : Nat) (scope : ScopeId) :
    List Expr → Store → List Value → Store → Prop where
  | nil {store : Store} : Collected depth scope [] store [] store
  | cons {first : Expr} {rest : List Expr} {store middle later : Store} {value : Value}
      {values : List Value}
      (first_done : evaluate depth first scope store = (.finished value, middle))
      (no_signal : value.isSignal = false)
      (rest_done : Collected depth scope rest middle values later) :
      Collected depth scope (first :: rest) store (value :: values) later

/-- The pairs of a hash literal finish one after another without a signal and with usable keys. -/
inductive Entered (depth : Nat) (scope : ScopeId) : List (Expr × Expr) → Store → Store → Prop where
  | nil {store : Store} : Entered depth scope [] store store
  | cons {key value : Expr} {rest : List (Expr × Expr)} {store middle next later : Store}
      {key_value other_value : Value} {slot : Slot}
      (key_done : evaluate depth key scope store = (.finished key_value, middle))
      (no_signal : key_value.isSignal = false) (usable : key_value.slot? = some slot)
      (value_done : evaluate depth value scope middle = (.finished other_value, next))
      (no_other_signal : other_value.isSignal = false)
      (rest_done : Entered depth scope rest next later) :
      Entered depth scope ((key, value) :: rest) store later

/-- Statements finish one after another without a signal. -/
inductive CarriedOut (depth : Nat) (scope : ScopeId) : List Statement → Store → Store → Prop where
  | nil {store : Store} : CarriedOut depth scope [] store store
  | cons {first : Statement} {rest : List Statement} {store middle later : Store}
      {found : Option Value}
      (first_done : statement (evaluate depth) scope first store = (.finished found, middle))
      (no_signal : found.any Value.isSignal = false)
      (rest_done : CarriedOut depth scope rest middle later) :
      CarriedOut depth scope (first :: rest) store later

/-- A signal ends the matter. -/
theorem ifPlain_of_signal {run : Run Value} (next : Value → Run Value)
    (done : run store = (.finished signal, later)) (is_signal : signal.isSignal = true) :
    ifPlain run next store = (.finished signal, later) := by
  refine (Run.bind_of_finished done).trans ?_
  rw [if_pos is_signal]
  rfl

theorem ifPlain_of_no_signal {run : Run Value} (next : Value → Run Value) {value : Value}
    (done : run store = (.finished value, later)) (no_signal : value.isSignal = false) :
    ifPlain run next store = next value later := by
  refine (Run.bind_of_finished done).trans ?_
  rw [if_neg (Bool.eq_false_iff.mp no_signal)]

/-- After some expressions, their values wait in front of those of the others. -/
theorem Collected.collect_append {exprs : List Expr} {values : List Value}
    (collected : Collected depth scope exprs store values later) (rest : List Expr)
    (next : List Value → Run Value) :
    collect (evaluate depth) scope next (exprs ++ rest) store =
      collect (evaluate depth) scope (fun others => next (values ++ others)) rest later := by
  induction collected generalizing next with
  | nil => rfl
  | cons first_done no_signal _ ih =>
      exact (ifPlain_of_no_signal _ first_done no_signal).trans (ih _)

theorem Collected.collect_eq {exprs : List Expr} {values : List Value}
    (collected : Collected depth scope exprs store values later) (next : List Value → Run Value) :
    collect (evaluate depth) scope next exprs store = next values later := by
  have appended := collected.collect_append [] next
  rwa [List.append_nil, collect, List.append_nil] at appended

theorem Entered.collectEntries_append {pairs : List (Expr × Expr)}
    (entered : Entered depth scope pairs store later) (rest : List (Expr × Expr))
    (next : List (Entry Value) → Run Value) (entries : List (Entry Value)) :
    ∃ more, collectEntries (evaluate depth) scope next entries (pairs ++ rest) store =
      collectEntries (evaluate depth) scope next more rest later := by
  induction entered generalizing entries with
  | nil => exact ⟨entries, rfl⟩
  | cons key_done no_signal usable value_done no_other_signal _ ih =>
      obtain ⟨more, rest_eq⟩ := ih (Dictionary.insert entries ⟨_, _, _⟩)
      refine ⟨more, Eq.trans ?_ rest_eq⟩
      refine (ifPlain_of_no_signal _ key_done no_signal).trans ?_
      rw [usable]
      exact ifPlain_of_no_signal _ value_done no_other_signal

theorem CarriedOut.statements_append {texts : List Statement}
    (carried : CarriedOut depth scope texts store later) (rest : List Statement)
    (last : Option Value) :
    ∃ found, statements (evaluate depth) scope last (texts ++ rest) store =
      statements (evaluate depth) scope found rest later := by
  induction carried generalizing last with
  | nil => exact ⟨last, rfl⟩
  | cons first_done no_signal _ ih =>
      obtain ⟨found, rest_eq⟩ := ih _
      refine ⟨found, Eq.trans ?_ rest_eq⟩
      refine (Run.bind_of_finished first_done).trans ?_
      rw [if_neg (Bool.eq_false_iff.mp no_signal)]
      rfl

/-! ## Entering a part -/

/-- A part of a program that is evaluated. -/
inductive Node where
  | expression (expr : Expr)
  | statement (text : Statement)
  | block (body : Block)

/-- A part of a program about to be evaluated: how deep it may go, in which scope and store. -/
structure Site where
  /-- The number of levels that evaluation may go down. -/
  depth : Nat
  /-- The scope in which names are looked up. -/
  scope : ScopeId
  /-- The part. -/
  node : Node
  /-- The store as the part finds it. -/
  store : Store

/-- A part finishes with a value and leaves a store behind. -/
def Site.Yields (site : Site) (value : Value) (later : Store) : Prop :=
  match site.node with
  | .expression expr => evaluate site.depth expr site.scope site.store = (.finished value, later)
  | .statement text =>
      statement (evaluate site.depth) site.scope text site.store = (.finished (some value), later)
  | .block body =>
      block (evaluate site.depth) site.scope body site.store = (.finished value, later)

/-- Evaluation comes from a construct to one of its parts, after all the parts before it have
finished without a signal. -/
inductive Enters : Site → Site → Prop where
  | prefixed {depth : Nat} {scope : ScopeId} {store : Store}
      {operator : Token} {operand : Expr} :
      Enters ⟨depth + 1, scope, .expression (.prefixed operator operand), store⟩
        ⟨depth, scope, .expression operand, store⟩
  | left {depth : Nat} {scope : ScopeId} {store : Store}
      {operator : Token} {left right : Expr} :
      Enters ⟨depth + 1, scope, .expression (.infixed operator left right), store⟩
        ⟨depth, scope, .expression left, store⟩
  | right {depth : Nat} {scope : ScopeId} {store later : Store}
      {operator : Token} {left right : Expr} {value : Value}
      (left_done : evaluate depth left scope store = (.finished value, later))
      (no_signal : value.isSignal = false) :
      Enters ⟨depth + 1, scope, .expression (.infixed operator left right), store⟩
        ⟨depth, scope, .expression right, later⟩
  | callee {depth : Nat} {scope : ScopeId} {store : Store}
      {token : Token} {callee : Expr} {arguments : List Expr} :
      Enters ⟨depth + 1, scope, .expression (.call token callee arguments), store⟩
        ⟨depth, scope, .expression callee, store⟩
  | argument {depth : Nat} {scope : ScopeId} {store middle later : Store}
      {token : Token} {callee hole : Expr} {before after : List Expr} {value : Value}
      {values : List Value}
      (callee_done : evaluate depth callee scope store = (.finished value, middle))
      (no_signal : value.isSignal = false)
      (before_done : Collected depth scope before middle values later) :
      Enters ⟨depth + 1, scope, .expression (.call token callee (before ++ hole :: after)), store⟩
        ⟨depth, scope, .expression hole, later⟩
  | element {depth : Nat} {scope : ScopeId} {store later : Store}
      {token : Token} {hole : Expr} {before after : List Expr} {values : List Value}
      (before_done : Collected depth scope before store values later) :
      Enters ⟨depth + 1, scope, .expression (.array token (before ++ hole :: after)), store⟩
        ⟨depth, scope, .expression hole, later⟩
  | key {depth : Nat} {scope : ScopeId} {store later : Store}
      {token : Token} {hole value : Expr} {before after : List (Expr × Expr)}
      (before_done : Entered depth scope before store later) :
      Enters ⟨depth + 1, scope, .expression (.hash token (before ++ (hole, value) :: after)), store⟩
        ⟨depth, scope, .expression hole, later⟩
  | entry {depth : Nat} {scope : ScopeId} {store middle later : Store}
      {token : Token} {key hole : Expr} {before after : List (Expr × Expr)} {value : Value}
      {slot : Slot} (before_done : Entered depth scope before store middle)
      (key_done : evaluate depth key scope middle = (.finished value, later))
      (no_signal : value.isSignal = false) (usable : value.slot? = some slot) :
      Enters ⟨depth + 1, scope, .expression (.hash token (before ++ (key, hole) :: after)), store⟩
        ⟨depth, scope, .expression hole, later⟩
  | container {depth : Nat} {scope : ScopeId} {store : Store}
      {token : Token} {container position : Expr} :
      Enters ⟨depth + 1, scope, .expression (.index token container position), store⟩
        ⟨depth, scope, .expression container, store⟩
  | position {depth : Nat} {scope : ScopeId} {store later : Store}
      {token : Token} {container position : Expr} {value : Value}
      (container_done : evaluate depth container scope store = (.finished value, later))
      (no_signal : value.isSignal = false) :
      Enters ⟨depth + 1, scope, .expression (.index token container position), store⟩
        ⟨depth, scope, .expression position, later⟩
  | condition {depth : Nat} {scope : ScopeId} {store : Store}
      {token : Token} {condition : Expr} {consequence : Block}
      {alternative : Option Block} :
      Enters
        ⟨depth + 1, scope,
          .expression (.conditional token condition consequence alternative), store⟩
        ⟨depth, scope, .expression condition, store⟩
  | consequence {depth : Nat} {scope : ScopeId} {store later : Store}
      {token : Token} {condition : Expr} {consequence : Block}
      {alternative : Option Block} {value : Value}
      (condition_done : evaluate depth condition scope store = (.finished value, later))
      (no_signal : value.isSignal = false) (truthy : value.isTruthy = true) :
      Enters
        ⟨depth + 1, scope,
          .expression (.conditional token condition consequence alternative), store⟩
        ⟨depth, scope, .block consequence, later⟩
  | alternative {depth : Nat} {scope : ScopeId} {store later : Store}
      {token : Token} {condition : Expr} {consequence alternative : Block}
      {value : Value}
      (condition_done : evaluate depth condition scope store = (.finished value, later))
      (no_signal : value.isSignal = false) (falsy : value.isTruthy = false) :
      Enters
        ⟨depth + 1, scope,
          .expression (.conditional token condition consequence (some alternative)), store⟩
        ⟨depth, scope, .block alternative, later⟩
  | binding {depth : Nat} {scope : ScopeId} {store : Store}
      {token name : Token} {value : Expr} :
      Enters ⟨depth, scope, .statement (.binding token name value), store⟩
        ⟨depth, scope, .expression value, store⟩
  | returning {depth : Nat} {scope : ScopeId} {store : Store}
      {token : Token} {value : Expr} :
      Enters ⟨depth, scope, .statement (.returning token value), store⟩
        ⟨depth, scope, .expression value, store⟩
  | standing {depth : Nat} {scope : ScopeId} {store : Store}
      {token : Token} {value : Expr} :
      Enters ⟨depth, scope, .statement (.expression token value), store⟩
        ⟨depth, scope, .expression value, store⟩
  | statement {depth : Nat} {scope : ScopeId} {store later : Store}
      {token : Token} {hole : Statement} {before after : List Statement}
      (before_done : CarriedOut depth scope before store later) :
      Enters ⟨depth, scope, .block (.mk token (before ++ hole :: after)), store⟩
        ⟨depth, scope, .statement hole, later⟩

/-- Evaluation comes from a call to the body of the function that it calls, in a scope of its own
where the parameters are bound. -/
inductive EntersBody : Site → Site → Prop where
  | call {depth : Nat} {scope : ScopeId} {store middle later : Store}
      {token : Token} {callee : Expr} {arguments : List Expr} {serial : Nat}
      {parameters : List String} {body : Block} {outer : ScopeId} {values : List Value}
      {bound : Store}
      (callee_done : evaluate depth callee scope store =
        (.finished (.function serial parameters body outer), middle))
      (arguments_done : Collected depth scope arguments middle values later)
      (parameters_bound : bindAll (later.enclose (some outer)).1 parameters values
        (later.enclose (some outer)).2 = (.finished (), bound)) :
      EntersBody ⟨depth + 1, scope, .expression (.call token callee arguments), store⟩
        ⟨depth + 1 - callWeight, (later.enclose (some outer)).1, .block body, bound⟩

/-- Evaluation comes to a part of a part, and so on. -/
def Reaches : Site → Site → Prop :=
  Relation.ReflTransGen Enters

/-- Evaluation comes to a part of a part, and so on, also in the bodies of the functions called on
the way. -/
def ReachesThroughCalls : Site → Site → Prop :=
  Relation.ReflTransGen fun outer inner => Enters outer inner ∨ EntersBody outer inner

/-! ## The way up -/

/-- After some statements, a signal is the value of them all. -/
theorem CarriedOut.statements_of_signal {before after : List Statement} {hole : Statement}
    (carried : CarriedOut depth scope before store later) (last : Option Value)
    (hole_done : statement (evaluate depth) scope hole later = (.finished (some signal), final))
    (is_signal : signal.isSignal = true) :
    statements (evaluate depth) scope last (before ++ hole :: after) store =
      (.finished (some signal), final) := by
  obtain ⟨found, rest_eq⟩ := carried.statements_append (hole :: after) last
  refine rest_eq.trans ((Run.bind_of_finished hole_done).trans ?_)
  rw [if_pos (by rw [Option.any_some, is_signal])]
  rfl

theorem yields_expression_succ {expr : Expr} {value : Value} :
    (Site.mk (depth + 1) scope (.expression expr) store).Yields value later ↔
      expression .standard (evaluate depth) (evaluate (depth + 1 - callWeight)) expr scope store =
        (.finished value, later) := by
  rw [← evaluate_succ]
  rfl

/-- A construct yields the signal that the part in hand yields, and leaves the store as it is. -/
theorem Enters.yields {outer inner : Site} (enters : Enters outer inner)
    (is_signal : signal.isSignal = true) (yields : inner.Yields signal final) :
    outer.Yields signal final := by
  cases enters with
  | prefixed | left | callee | container | condition =>
      exact yields_expression_succ.mpr (ifPlain_of_signal _ yields is_signal)
  | right left_done no_signal | position left_done no_signal =>
      refine yields_expression_succ.mpr ((ifPlain_of_no_signal _ left_done no_signal).trans ?_)
      exact ifPlain_of_signal _ yields is_signal
  | argument callee_done no_signal before_done =>
      refine yields_expression_succ.mpr ((ifPlain_of_no_signal _ callee_done no_signal).trans ?_)
      exact (before_done.collect_append _ _).trans (ifPlain_of_signal _ yields is_signal)
  | element before_done =>
      refine yields_expression_succ.mpr ((before_done.collect_append _ _).trans ?_)
      exact ifPlain_of_signal _ yields is_signal
  | key before_done =>
      obtain ⟨entries, rest_eq⟩ := before_done.collectEntries_append _ _ []
      refine yields_expression_succ.mpr (rest_eq.trans ?_)
      exact ifPlain_of_signal _ yields is_signal
  | entry before_done key_done no_signal usable =>
      obtain ⟨entries, rest_eq⟩ := before_done.collectEntries_append _ _ []
      refine yields_expression_succ.mpr (rest_eq.trans ?_)
      refine (ifPlain_of_no_signal _ key_done no_signal).trans ?_
      rw [usable]
      exact ifPlain_of_signal _ yields is_signal
  | consequence condition_done no_signal truthy =>
      refine yields_expression_succ.mpr ((ifPlain_of_no_signal _ condition_done no_signal).trans ?_)
      unfold choose
      rw [if_pos truthy]
      exact yields
  | alternative condition_done no_signal falsy =>
      refine yields_expression_succ.mpr ((ifPlain_of_no_signal _ condition_done no_signal).trans ?_)
      unfold choose
      rw [if_neg (Bool.eq_false_iff.mp falsy)]
      exact yields
  | binding | returning =>
      refine (Run.bind_of_finished yields).trans ?_
      rw [if_pos is_signal]
      rfl
  | standing => exact Run.bind_of_finished yields
  | statement before_done =>
      exact Run.bind_of_finished (before_done.statements_of_signal none yields is_signal)

/-- What the body of a function yields, the call yields without its wrapping. -/
theorem EntersBody.yields {outer inner : Site} {value : Value} (enters : EntersBody outer inner)
    (yields : inner.Yields value final) : outer.Yields value.unwrap final := by
  cases enters with
  | call callee_done arguments_done parameters_bound =>
      refine yields_expression_succ.mpr ((ifPlain_of_no_signal _ callee_done rfl).trans ?_)
      refine (arguments_done.collect_eq _).trans ?_
      refine (Run.bind_of_finished parameters_bound).trans ?_
      exact Run.bind_of_finished yields

theorem Reaches.yields {outer inner : Site} (reach : Reaches outer inner)
    (is_signal : signal.isSignal = true) (yields : inner.Yields signal final) :
    outer.Yields signal final := by
  induction reach with
  | refl => exact yields
  | tail _ enters ih => exact ih (enters.yields is_signal yields)

/-- A mistake passes the ends of function bodies as well. -/
theorem ReachesThroughCalls.yields_error {outer inner : Site} {serial : Nat} {mistake : Mistake}
    (reach : ReachesThroughCalls outer inner)
    (yields : inner.Yields (.error serial mistake) final) :
    outer.Yields (.error serial mistake) final := by
  induction reach with
  | refl => exact yields
  | tail _ enters ih =>
      rcases enters with enters | enters
      · exact ih (enters.yields rfl yields)
      · exact ih (enters.yields yields)

theorem program_of_signal {before after : List Statement} {hole : Statement}
    (carried : CarriedOut depth scope before store later)
    (yields : (Site.mk depth scope (.statement hole) later).Yields signal final)
    (is_signal : signal.isSignal = true) :
    program (evaluate depth) scope ⟨before ++ hole :: after⟩ store =
      (.finished (some signal.unwrap), final) :=
  Run.bind_of_finished (carried.statements_of_signal none yields is_signal)

/-- A signal passes every construct that evaluation has entered on the way to it, with the store as
it was when the signal came up.  At the end of a function body and of a program the wrapping of a
returned value falls, and a mistake goes on as it is. -/
theorem signals_travel_up :
    (∀ outer inner signal final, Reaches outer inner → signal.isSignal = true →
      inner.Yields signal final → outer.Yields signal final) ∧
    (∀ outer inner value final, EntersBody outer inner →
      inner.Yields value final → outer.Yields value.unwrap final) ∧
    (∀ outer inner serial mistake final, ReachesThroughCalls outer inner →
      inner.Yields (.error serial mistake) final → outer.Yields (.error serial mistake) final) ∧
    ∀ depth scope before hole after store later signal final,
      CarriedOut depth scope before store later → signal.isSignal = true →
      (Site.mk depth scope (.statement hole) later).Yields signal final →
        program (evaluate depth) scope ⟨before ++ hole :: after⟩ store =
          (.finished (some signal.unwrap), final) :=
  ⟨fun _ _ _ _ reach is_signal yields => reach.yields is_signal yields,
    fun _ _ _ _ enters yields => enters.yields yields,
    fun _ _ _ _ _ reach yields => reach.yields_error yields,
    fun _ _ _ _ _ _ _ _ _ carried is_signal yields => program_of_signal carried yields is_signal⟩

/-- A block with a single statement. -/
def bodyOf (text : Statement) : Block :=
  .mk ⟨.openBrace, "\x7b", 0⟩ [text]

/-- The call of a function without parameters that has such a block. -/
def callOf (text : Statement) : Expr :=
  .call ⟨.openParen, "(", 0⟩ (.function ⟨.functionWord, "fn", 0⟩ [] (bodyOf text)) []

theorem enters_bodyOf (depth : Nat) (scope : ScopeId) (text : Statement) (store : Store) :
    Enters ⟨depth, scope, .block (bodyOf text), store⟩ ⟨depth, scope, .statement text, store⟩ := by
  have enters : Enters
      ⟨depth, scope, .block (.mk ⟨.openBrace, "\x7b", 0⟩ ([] ++ text :: [])), store⟩
      ⟨depth, scope, .statement text, store⟩ := .statement .nil
  exact enters

theorem entersBody_callOf (text : Statement) :
    EntersBody ⟨30, 0, .expression (callOf text), .empty⟩
      ⟨5, 0, .block (bodyOf text), ⟨#[⟨some 0, []⟩], 1, ""⟩⟩ := by
  have callee_done :
      evaluate 29 (.function ⟨.functionWord, "fn", 0⟩ [] (bodyOf text)) 0 .empty =
        (.finished (.function 0 [] (bodyOf text) 0), ⟨#[], 1, ""⟩) := by
    rw [evaluate_succ]
    rfl
  exact .call callee_done .nil rfl

theorem integer_done (depth : Nat) (store : Store) :
    evaluate (depth + 1) (.integer ⟨.integer, "1", 0⟩ 1) 0 store =
      (.finished (.integer store.made 1), store.fresh.2) := by
  rw [evaluate_succ]
  rfl

theorem negated_yields (depth : Nat) (store : Store) :
    (Site.mk (depth + 2) 0
      (.expression (.prefixed ⟨.minus, "-", 0⟩ (.boolean ⟨.trueWord, "true", 0⟩))) store).Yields
        (.error store.made (.unknownPrefix "-" .boolean)) store.fresh.2 := by
  have operand_done : evaluate (depth + 1) (.boolean ⟨.trueWord, "true", 0⟩) 0 store =
      (.finished (.boolean true), store) := by
    rw [evaluate_succ]
    rfl
  exact yields_expression_succ.mpr (ifPlain_of_no_signal _ operand_done rfl)

/-- In `[1, -true, print()]` nothing is printed, a function that returns one yields one, and a
mistake in the body of a function ends the program that calls it. -/
theorem signals_travel_up_examples :
    let negated : Expr := .prefixed ⟨.minus, "-", 0⟩ (.boolean ⟨.trueWord, "true", 0⟩)
    let printed : Expr := .call ⟨.openParen, "(", 0⟩ (.identifier ⟨.identifier, "print", 0⟩) []
    let one : Expr := .integer ⟨.integer, "1", 0⟩ 1
    let array : Expr := .array ⟨.openBracket, "[", 0⟩ [one, negated, printed]
    let returning : Statement := .returning ⟨.returnWord, "return", 0⟩ one
    let failing : Statement := .expression ⟨.minus, "-", 0⟩ negated
    let calling : Statement := .expression ⟨.functionWord, "fn", 0⟩ (callOf failing)
    (Site.mk 3 0 (.expression array) .empty).Yields (.error 1 (.unknownPrefix "-" .boolean))
        ⟨#[], 2, ""⟩ ∧
      (Site.mk 30 0 (.expression (callOf returning)) .empty).Yields (.integer 1 1)
        ⟨#[⟨some 0, []⟩], 3, ""⟩ ∧
      program (evaluate 30) 0 ⟨[calling, returning]⟩ .empty =
        (.finished (some (.error 1 (.unknownPrefix "-" .boolean))), ⟨#[⟨some 0, []⟩], 2, ""⟩) := by
  intro negated printed one array returning failing calling
  refine ⟨?_, ?_, ?_⟩
  · have enters : Enters
        ⟨3, 0, .expression (.array ⟨.openBracket, "[", 0⟩ ([one] ++ negated :: [printed])), .empty⟩
        ⟨2, 0, .expression negated, ⟨#[], 1, ""⟩⟩ :=
      .element (.cons (integer_done 1 .empty) rfl .nil)
    exact signals_travel_up.1 _ _ _ _ (.single enters) rfl (negated_yields 0 ⟨#[], 1, ""⟩)
  · have returned : statement (evaluate 5) 0 returning ⟨#[⟨some 0, []⟩], 1, ""⟩ =
        (.finished (some (.returned 2 (.integer 1 1))), ⟨#[⟨some 0, []⟩], 3, ""⟩) :=
      Run.bind_of_finished (integer_done 4 ⟨#[⟨some 0, []⟩], 1, ""⟩)
    have body_yields :=
      signals_travel_up.1 _ _ _ _ (.single (enters_bodyOf _ _ _ _)) rfl returned
    exact signals_travel_up.2.1 _ _ _ _ (entersBody_callOf _) body_yields
  · have entered : ReachesThroughCalls ⟨30, 0, .statement calling, .empty⟩
        ⟨5, 0, .block (bodyOf failing), ⟨#[⟨some 0, []⟩], 1, ""⟩⟩ :=
      (Relation.ReflTransGen.single (.inl .standing)).tail (.inr (entersBody_callOf failing))
    have reach : ReachesThroughCalls ⟨30, 0, .statement calling, .empty⟩
        ⟨5, 0, .expression negated, ⟨#[⟨some 0, []⟩], 1, ""⟩⟩ :=
      (entered.tail (.inl (enters_bodyOf _ _ _ _))).tail (.inl .standing)
    have yields := signals_travel_up.2.2.1 _ _ _ _ _ reach
      (negated_yields 3 ⟨#[⟨some 0, []⟩], 1, ""⟩)
    exact signals_travel_up.2.2.2 30 0 [] _ [_] .empty .empty _ _ .nil rfl yields

end Evaluation
end MarmosetLang
