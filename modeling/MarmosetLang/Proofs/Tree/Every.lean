import MarmosetLang.Tree

/-!
# Properties of all expressions in a tree

What is said of every expression in a tree is said of the tree itself and of all that is nested in
it, the bodies of functions and the branches of choices included.
-/

namespace MarmosetLang

mutual

/-- Every expression in an expression has a property. -/
inductive Expr.Every (Holds : Expr → Prop) : Expr → Prop where
  | identifier {token : Token} (here : Holds (.identifier token)) :
      Expr.Every Holds (.identifier token)
  | integer {token : Token} {value : Nat} (here : Holds (.integer token value)) :
      Expr.Every Holds (.integer token value)
  | boolean {token : Token} (here : Holds (.boolean token)) : Expr.Every Holds (.boolean token)
  | string {token : Token} (here : Holds (.string token)) : Expr.Every Holds (.string token)
  | array {token : Token} {elements : List Expr} (here : Holds (.array token elements))
      (inside : ∀ element ∈ elements, Expr.Every Holds element) :
      Expr.Every Holds (.array token elements)
  | hash {token : Token} {pairs : List (Expr × Expr)} (here : Holds (.hash token pairs))
      (keys : ∀ pair ∈ pairs, Expr.Every Holds pair.1)
      (values : ∀ pair ∈ pairs, Expr.Every Holds pair.2) :
      Expr.Every Holds (.hash token pairs)
  | prefixed {operator : Token} {operand : Expr} (here : Holds (.prefixed operator operand))
      (inside : Expr.Every Holds operand) : Expr.Every Holds (.prefixed operator operand)
  | infixed {operator : Token} {left right : Expr} (here : Holds (.infixed operator left right))
      (on_left : Expr.Every Holds left) (on_right : Expr.Every Holds right) :
      Expr.Every Holds (.infixed operator left right)
  | conditional {token : Token} {condition : Expr} {consequence : Block}
      {alternative : Option Block}
      (here : Holds (.conditional token condition consequence alternative))
      (asked : Expr.Every Holds condition) (either : Block.Every Holds consequence)
      (otherwise : ∀ body ∈ alternative, Block.Every Holds body) :
      Expr.Every Holds (.conditional token condition consequence alternative)
  | function {token : Token} {parameters : List Token} {body : Block}
      (here : Holds (.function token parameters body)) (inside : Block.Every Holds body) :
      Expr.Every Holds (.function token parameters body)
  | call {token : Token} {callee : Expr} {arguments : List Expr}
      (here : Holds (.call token callee arguments)) (called : Expr.Every Holds callee)
      (given : ∀ argument ∈ arguments, Expr.Every Holds argument) :
      Expr.Every Holds (.call token callee arguments)
  | index {token : Token} {container position : Expr}
      (here : Holds (.index token container position)) (whence : Expr.Every Holds container)
      (place : Expr.Every Holds position) : Expr.Every Holds (.index token container position)

/-- Every expression in a block has a property. -/
inductive Block.Every (Holds : Expr → Prop) : Block → Prop where
  | mk {token : Token} {statements : List Statement}
      (inside : ∀ statement ∈ statements, Statement.Every Holds statement) :
      Block.Every Holds (.mk token statements)

/-- Every expression in a statement has a property. -/
inductive Statement.Every (Holds : Expr → Prop) : Statement → Prop where
  | binding {token name : Token} {value : Expr} (inside : Expr.Every Holds value) :
      Statement.Every Holds (.binding token name value)
  | returning {token : Token} {value : Expr} (inside : Expr.Every Holds value) :
      Statement.Every Holds (.returning token value)
  | expression {token : Token} {value : Expr} (inside : Expr.Every Holds value) :
      Statement.Every Holds (.expression token value)

end

/-- Every expression in a program has a property. -/
def Program.Every (Holds : Expr → Prop) (program : Program) : Prop :=
  ∀ statement ∈ program.statements, statement.Every Holds

theorem Block.Every.statements {Holds : Expr → Prop} {body : Block} (every : body.Every Holds) :
    ∀ statement ∈ body.statements, statement.Every Holds := by
  cases every with
  | mk inside => exact inside

variable {Holds : Expr → Prop}

theorem Expr.Every.here {expr : Expr} (every : expr.Every Holds) : Holds expr := by
  cases every <;> assumption

mutual

theorem Expr.every_of_forall (all : ∀ expr, Holds expr) (expr : Expr) : expr.Every Holds := by
  match expr with
  | .identifier _ => exact .identifier (all _)
  | .integer _ _ => exact .integer (all _)
  | .boolean _ => exact .boolean (all _)
  | .string _ => exact .string (all _)
  | .array _ elements => exact .array (all _) (Expr.every_each_of_forall all elements)
  | .hash _ pairs =>
      exact .hash (all _) (fun pair member => (Expr.every_pairs_of_forall all pairs pair member).1)
        fun pair member => (Expr.every_pairs_of_forall all pairs pair member).2
  | .prefixed _ operand => exact .prefixed (all _) (Expr.every_of_forall all operand)
  | .infixed _ left right =>
      exact .infixed (all _) (Expr.every_of_forall all left) (Expr.every_of_forall all right)
  | .conditional _ condition consequence none =>
      exact .conditional (all _) (Expr.every_of_forall all condition)
        (Block.every_of_forall all consequence) (by simp)
  | .conditional _ condition consequence (some alternative) =>
      refine .conditional (all _) (Expr.every_of_forall all condition)
        (Block.every_of_forall all consequence) ?_
      rintro _ ⟨⟩
      exact Block.every_of_forall all alternative
  | .function _ _ body => exact .function (all _) (Block.every_of_forall all body)
  | .call _ callee arguments =>
      exact .call (all _) (Expr.every_of_forall all callee)
        (Expr.every_each_of_forall all arguments)
  | .index _ container position =>
      exact .index (all _) (Expr.every_of_forall all container) (Expr.every_of_forall all position)

theorem Expr.every_each_of_forall (all : ∀ expr, Holds expr) (exprs : List Expr) :
    ∀ expr ∈ exprs, expr.Every Holds := by
  match exprs with
  | [] => exact List.forall_mem_nil _
  | first :: rest =>
      exact List.forall_mem_cons.mpr
        ⟨Expr.every_of_forall all first, Expr.every_each_of_forall all rest⟩

theorem Expr.every_pairs_of_forall (all : ∀ expr, Holds expr) (pairs : List (Expr × Expr)) :
    ∀ pair ∈ pairs, pair.1.Every Holds ∧ pair.2.Every Holds := by
  match pairs with
  | [] => exact List.forall_mem_nil _
  | (key, value) :: rest =>
      exact List.forall_mem_cons.mpr
        ⟨⟨Expr.every_of_forall all key, Expr.every_of_forall all value⟩,
          Expr.every_pairs_of_forall all rest⟩

theorem Block.every_of_forall (all : ∀ expr, Holds expr) (body : Block) : body.Every Holds := by
  match body with
  | .mk _ statements => exact .mk (Statement.every_all_of_forall all statements)

theorem Statement.every_of_forall (all : ∀ expr, Holds expr) (statement : Statement) :
    statement.Every Holds := by
  match statement with
  | .binding _ _ value => exact .binding (Expr.every_of_forall all value)
  | .returning _ value => exact .returning (Expr.every_of_forall all value)
  | .expression _ value => exact .expression (Expr.every_of_forall all value)

theorem Statement.every_all_of_forall (all : ∀ expr, Holds expr) (statements : List Statement) :
    ∀ statement ∈ statements, statement.Every Holds := by
  match statements with
  | [] => exact List.forall_mem_nil _
  | first :: rest =>
      exact List.forall_mem_cons.mpr
        ⟨Statement.every_of_forall all first, Statement.every_all_of_forall all rest⟩

end

/-- What is true of all expressions is true of those in any program. -/
theorem Program.every_of_forall (all : ∀ expr, Holds expr) (program : Program) :
    program.Every Holds :=
  Statement.every_all_of_forall all program.statements

end MarmosetLang
