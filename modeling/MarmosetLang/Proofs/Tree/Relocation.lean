import MarmosetLang.Tree.Render

/-!
# Relocation

Every token in a tree knows where in the text it stands.  Moving tokens to other places leaves all
else about a tree as it is, its written form included.
-/

namespace MarmosetLang

/-- The token at another place. -/
def Token.relocate (move : Nat → Nat) (token : Token) : Token :=
  { token with offset := move token.offset }

mutual

/-- The expression with its tokens at other places. -/
def Expr.relocate (move : Nat → Nat) : Expr → Expr
  | .identifier token => .identifier (token.relocate move)
  | .integer token value => .integer (token.relocate move) value
  | .boolean token => .boolean (token.relocate move)
  | .string token => .string (token.relocate move)
  | .array token elements => .array (token.relocate move) (Expr.relocateEach move elements)
  | .hash token pairs => .hash (token.relocate move) (Expr.relocatePairs move pairs)
  | .prefixed operator operand => .prefixed (operator.relocate move) (operand.relocate move)
  | .infixed operator left right =>
      .infixed (operator.relocate move) (left.relocate move) (right.relocate move)
  | .conditional token condition consequence none =>
      .conditional (token.relocate move) (condition.relocate move) (consequence.relocate move) none
  | .conditional token condition consequence (some alternative) =>
      .conditional (token.relocate move) (condition.relocate move) (consequence.relocate move)
        (some (alternative.relocate move))
  | .function token parameters body =>
      .function (token.relocate move) (parameters.map (Token.relocate move)) (body.relocate move)
  | .call token callee arguments =>
      .call (token.relocate move) (callee.relocate move) (Expr.relocateEach move arguments)
  | .index token container position =>
      .index (token.relocate move) (container.relocate move) (position.relocate move)

/-- The expressions with their tokens at other places. -/
def Expr.relocateEach (move : Nat → Nat) : List Expr → List Expr
  | [] => []
  | first :: rest => first.relocate move :: Expr.relocateEach move rest

/-- The pairs of a hash literal with their tokens at other places. -/
def Expr.relocatePairs (move : Nat → Nat) : List (Expr × Expr) → List (Expr × Expr)
  | [] => []
  | (key, value) :: rest =>
      (key.relocate move, value.relocate move) :: Expr.relocatePairs move rest

/-- The block with its tokens at other places. -/
def Block.relocate (move : Nat → Nat) : Block → Block
  | .mk token statements => .mk (token.relocate move) (Statement.relocateAll move statements)

/-- The statement with its tokens at other places. -/
def Statement.relocate (move : Nat → Nat) : Statement → Statement
  | .binding token name value =>
      .binding (token.relocate move) (name.relocate move) (value.relocate move)
  | .returning token value => .returning (token.relocate move) (value.relocate move)
  | .expression token value => .expression (token.relocate move) (value.relocate move)

/-- The statements with their tokens at other places. -/
def Statement.relocateAll (move : Nat → Nat) : List Statement → List Statement
  | [] => []
  | first :: rest => first.relocate move :: Statement.relocateAll move rest

end

/-- The program with its tokens at other places. -/
def Program.relocate (move : Nat → Nat) (program : Program) : Program :=
  ⟨Statement.relocateAll move program.statements⟩

section

variable (move : Nat → Nat)

@[simp]
theorem Token.kind_relocate (token : Token) : (token.relocate move).kind = token.kind := rfl

@[simp]
theorem Token.literal_relocate (token : Token) : (token.relocate move).literal = token.literal :=
  rfl

@[simp]
theorem Token.map_literal_relocate (tokens : List Token) :
    (tokens.map (Token.relocate move)).map Token.literal = tokens.map Token.literal := by
  rw [List.map_map]
  rfl

@[simp]
theorem Block.statements_relocate (body : Block) :
    (body.relocate move).statements = Statement.relocateAll move body.statements := by
  cases body
  rw [Block.relocate]
  rfl

theorem Expr.relocateEach_eq_map (exprs : List Expr) :
    Expr.relocateEach move exprs = exprs.map (Expr.relocate move) := by
  induction exprs with
  | nil => rw [Expr.relocateEach, List.map_nil]
  | cons first rest ih => rw [Expr.relocateEach, List.map_cons, ih]

theorem Expr.relocatePairs_eq_map (pairs : List (Expr × Expr)) :
    Expr.relocatePairs move pairs =
      pairs.map fun pair => (pair.1.relocate move, pair.2.relocate move) := by
  induction pairs with
  | nil => rw [Expr.relocatePairs, List.map_nil]
  | cons first rest ih => rw [Expr.relocatePairs, List.map_cons, ih]

theorem Statement.relocateAll_eq_map (statements : List Statement) :
    Statement.relocateAll move statements = statements.map (Statement.relocate move) := by
  induction statements with
  | nil => rw [Statement.relocateAll, List.map_nil]
  | cons first rest ih => rw [Statement.relocateAll, List.map_cons, ih]

end

/-! ## Laws -/

mutual

theorem Expr.render_relocate (move : Nat → Nat) (expr : Expr) :
    (expr.relocate move).render = expr.render := by
  match expr with
  | .identifier _ | .integer _ _ | .boolean _ | .string _ =>
      simp only [Expr.relocate, Expr.render, Token.literal_relocate]
  | .array _ elements =>
      simp only [Expr.relocate, Expr.render, Expr.renderEach_relocate move elements]
  | .hash _ pairs => simp only [Expr.relocate, Expr.render, Expr.renderPairs_relocate move pairs]
  | .prefixed _ operand =>
      simp only [Expr.relocate, Expr.render, Expr.render_relocate move operand,
        Token.literal_relocate]
  | .infixed _ left right =>
      simp only [Expr.relocate, Expr.render, Expr.render_relocate move left,
        Expr.render_relocate move right, Token.literal_relocate]
  | .conditional _ condition consequence none =>
      simp only [Expr.relocate, Expr.render, Expr.render_relocate move condition,
        Block.render_relocate move consequence]
  | .conditional _ condition consequence (some alternative) =>
      simp only [Expr.relocate, Expr.render, Expr.render_relocate move condition,
        Block.render_relocate move consequence, Block.render_relocate move alternative]
  | .function _ parameters body =>
      simp only [Expr.relocate, Expr.render, Block.render_relocate move body,
        Token.literal_relocate, Token.map_literal_relocate]
  | .call _ callee arguments =>
      simp only [Expr.relocate, Expr.render, Expr.render_relocate move callee,
        Expr.renderEach_relocate move arguments]
  | .index _ container position =>
      simp only [Expr.relocate, Expr.render, Expr.render_relocate move container,
        Expr.render_relocate move position]

theorem Expr.renderEach_relocate (move : Nat → Nat) (exprs : List Expr) :
    Expr.renderEach (Expr.relocateEach move exprs) = Expr.renderEach exprs := by
  match exprs with
  | [] => rw [Expr.relocateEach]
  | first :: rest =>
      rw [Expr.relocateEach, Expr.renderEach, Expr.renderEach, Expr.render_relocate move first,
        Expr.renderEach_relocate move rest]

theorem Expr.renderPairs_relocate (move : Nat → Nat) (pairs : List (Expr × Expr)) :
    Expr.renderPairs (Expr.relocatePairs move pairs) = Expr.renderPairs pairs := by
  match pairs with
  | [] => rw [Expr.relocatePairs]
  | (key, value) :: rest =>
      rw [Expr.relocatePairs, Expr.renderPairs, Expr.renderPairs, Expr.render_relocate move key,
        Expr.render_relocate move value, Expr.renderPairs_relocate move rest]

theorem Block.render_relocate (move : Nat → Nat) (body : Block) :
    (body.relocate move).render = body.render := by
  match body with
  | .mk _ statements =>
      rw [Block.relocate, Block.render, Block.render, Statement.renderAll_relocate move statements]

theorem Statement.render_relocate (move : Nat → Nat) (statement : Statement) :
    (statement.relocate move).render = statement.render := by
  match statement with
  | .binding _ _ value | .returning _ value | .expression _ value =>
      simp only [Statement.relocate, Statement.render, Expr.render_relocate move value,
        Token.literal_relocate]

theorem Statement.renderAll_relocate (move : Nat → Nat) (statements : List Statement) :
    Statement.renderAll (Statement.relocateAll move statements) =
      Statement.renderAll statements := by
  match statements with
  | [] => rw [Statement.relocateAll]
  | first :: rest =>
      rw [Statement.relocateAll, Statement.renderAll, Statement.renderAll,
        Statement.render_relocate move first, Statement.renderAll_relocate move rest]

end

theorem Program.render_relocate (move : Nat → Nat) (program : Program) :
    (program.relocate move).render = program.render :=
  Statement.renderAll_relocate move program.statements

theorem Token.relocate_relocate (move again : Nat → Nat) (token : Token) :
    (token.relocate move).relocate again = token.relocate (again ∘ move) := rfl

mutual

theorem Expr.relocate_relocate (move again : Nat → Nat) (expr : Expr) :
    (expr.relocate move).relocate again = expr.relocate (again ∘ move) := by
  match expr with
  | .identifier _ | .integer _ _ | .boolean _ | .string _ =>
      simp only [Expr.relocate, Token.relocate_relocate]
  | .array _ elements =>
      simp only [Expr.relocate, Token.relocate_relocate,
        Expr.relocateEach_relocateEach move again elements]
  | .hash _ pairs =>
      simp only [Expr.relocate, Token.relocate_relocate,
        Expr.relocatePairs_relocatePairs move again pairs]
  | .prefixed _ operand =>
      simp only [Expr.relocate, Token.relocate_relocate, Expr.relocate_relocate move again operand]
  | .infixed _ left right =>
      simp only [Expr.relocate, Token.relocate_relocate, Expr.relocate_relocate move again left,
        Expr.relocate_relocate move again right]
  | .conditional _ condition consequence none =>
      simp only [Expr.relocate, Token.relocate_relocate,
        Expr.relocate_relocate move again condition, Block.relocate_relocate move again consequence]
  | .conditional _ condition consequence (some alternative) =>
      simp only [Expr.relocate, Token.relocate_relocate,
        Expr.relocate_relocate move again condition,
        Block.relocate_relocate move again consequence,
        Block.relocate_relocate move again alternative]
  | .function _ parameters body =>
      simp only [Expr.relocate, Token.relocate_relocate, List.map_map,
        Block.relocate_relocate move again body]
      rfl
  | .call _ callee arguments =>
      simp only [Expr.relocate, Token.relocate_relocate, Expr.relocate_relocate move again callee,
        Expr.relocateEach_relocateEach move again arguments]
  | .index _ container position =>
      simp only [Expr.relocate, Token.relocate_relocate,
        Expr.relocate_relocate move again container, Expr.relocate_relocate move again position]

theorem Expr.relocateEach_relocateEach (move again : Nat → Nat) (exprs : List Expr) :
    Expr.relocateEach again (Expr.relocateEach move exprs) =
      Expr.relocateEach (again ∘ move) exprs := by
  match exprs with
  | [] => simp only [Expr.relocateEach]
  | first :: rest =>
      simp only [Expr.relocateEach, Expr.relocate_relocate move again first,
        Expr.relocateEach_relocateEach move again rest]

theorem Expr.relocatePairs_relocatePairs (move again : Nat → Nat) (pairs : List (Expr × Expr)) :
    Expr.relocatePairs again (Expr.relocatePairs move pairs) =
      Expr.relocatePairs (again ∘ move) pairs := by
  match pairs with
  | [] => simp only [Expr.relocatePairs]
  | (key, value) :: rest =>
      simp only [Expr.relocatePairs, Expr.relocate_relocate move again key,
        Expr.relocate_relocate move again value, Expr.relocatePairs_relocatePairs move again rest]

theorem Block.relocate_relocate (move again : Nat → Nat) (body : Block) :
    (body.relocate move).relocate again = body.relocate (again ∘ move) := by
  match body with
  | .mk _ statements =>
      simp only [Block.relocate, Token.relocate_relocate,
        Statement.relocateAll_relocateAll move again statements]

theorem Statement.relocate_relocate (move again : Nat → Nat) (statement : Statement) :
    (statement.relocate move).relocate again = statement.relocate (again ∘ move) := by
  match statement with
  | .binding _ _ value | .returning _ value | .expression _ value =>
      simp only [Statement.relocate, Token.relocate_relocate,
        Expr.relocate_relocate move again value]

theorem Statement.relocateAll_relocateAll (move again : Nat → Nat) (statements : List Statement) :
    Statement.relocateAll again (Statement.relocateAll move statements) =
      Statement.relocateAll (again ∘ move) statements := by
  match statements with
  | [] => simp only [Statement.relocateAll]
  | first :: rest =>
      simp only [Statement.relocateAll, Statement.relocate_relocate move again first,
        Statement.relocateAll_relocateAll move again rest]

end

theorem Token.relocate_id : Token.relocate id = id := rfl

mutual

theorem Expr.relocate_id (expr : Expr) : expr.relocate id = expr := by
  match expr with
  | .identifier _ | .integer _ _ | .boolean _ | .string _ =>
      simp only [Expr.relocate, Token.relocate_id, id]
  | .array _ elements =>
      simp only [Expr.relocate, Token.relocate_id, Expr.relocateEach_id elements, id]
  | .hash _ pairs => simp only [Expr.relocate, Token.relocate_id, Expr.relocatePairs_id pairs, id]
  | .prefixed _ operand =>
      simp only [Expr.relocate, Token.relocate_id, Expr.relocate_id operand, id]
  | .infixed _ left right =>
      simp only [Expr.relocate, Token.relocate_id, Expr.relocate_id left, Expr.relocate_id right,
        id]
  | .conditional _ condition consequence none =>
      simp only [Expr.relocate, Token.relocate_id, Expr.relocate_id condition,
        Block.relocate_id consequence, id]
  | .conditional _ condition consequence (some alternative) =>
      simp only [Expr.relocate, Token.relocate_id, Expr.relocate_id condition,
        Block.relocate_id consequence, Block.relocate_id alternative, id]
  | .function _ parameters body =>
      simp only [Expr.relocate, Token.relocate_id, List.map_id, Block.relocate_id body, id]
  | .call _ callee arguments =>
      simp only [Expr.relocate, Token.relocate_id, Expr.relocate_id callee,
        Expr.relocateEach_id arguments, id]
  | .index _ container position =>
      simp only [Expr.relocate, Token.relocate_id, Expr.relocate_id container,
        Expr.relocate_id position, id]

theorem Expr.relocateEach_id (exprs : List Expr) : Expr.relocateEach id exprs = exprs := by
  match exprs with
  | [] => rw [Expr.relocateEach]
  | first :: rest =>
      rw [Expr.relocateEach, Expr.relocate_id first, Expr.relocateEach_id rest]

theorem Expr.relocatePairs_id (pairs : List (Expr × Expr)) :
    Expr.relocatePairs id pairs = pairs := by
  match pairs with
  | [] => rw [Expr.relocatePairs]
  | (key, value) :: rest =>
      rw [Expr.relocatePairs, Expr.relocate_id key, Expr.relocate_id value,
        Expr.relocatePairs_id rest]

theorem Block.relocate_id (body : Block) : body.relocate id = body := by
  match body with
  | .mk _ statements =>
      simp only [Block.relocate, Token.relocate_id, Statement.relocateAll_id statements, id]

theorem Statement.relocate_id (statement : Statement) : statement.relocate id = statement := by
  match statement with
  | .binding _ _ value | .returning _ value | .expression _ value =>
      simp only [Statement.relocate, Token.relocate_id, Expr.relocate_id value, id]

theorem Statement.relocateAll_id (statements : List Statement) :
    Statement.relocateAll id statements = statements := by
  match statements with
  | [] => rw [Statement.relocateAll]
  | first :: rest =>
      rw [Statement.relocateAll, Statement.relocate_id first, Statement.relocateAll_id rest]

end

theorem Program.relocate_id (program : Program) : program.relocate id = program := by
  rw [Program.relocate, Statement.relocateAll_id]

theorem Program.relocate_relocate (move again : Nat → Nat) (program : Program) :
    (program.relocate move).relocate again = program.relocate (again ∘ move) := by
  simp only [Program.relocate, Statement.relocateAll_relocateAll]

end MarmosetLang
