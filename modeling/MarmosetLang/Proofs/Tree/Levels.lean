import MarmosetLang.Tree

/-!
# Levels of a tree

How deep a tree is, counted in expressions one inside another.  Blocks and statements take up no
level of their own.
-/

namespace MarmosetLang

mutual

/-- The number of levels of an expression, the one on which it stands itself included. -/
def Expr.levels : Expr → Nat
  | .identifier _ => 1
  | .integer _ _ => 1
  | .boolean _ => 1
  | .string _ => 1
  | .array _ elements => Expr.levelsEach elements + 1
  | .hash _ pairs => Expr.levelsPairs pairs + 1
  | .prefixed _ operand => operand.levels + 1
  | .infixed _ left right => max left.levels right.levels + 1
  | .conditional _ condition consequence none =>
      max condition.levels consequence.levels + 1
  | .conditional _ condition consequence (some alternative) =>
      max condition.levels (max consequence.levels alternative.levels) + 1
  | .function _ _ body => body.levels + 1
  | .call _ callee arguments => max callee.levels (Expr.levelsEach arguments) + 1
  | .index _ container position => max container.levels position.levels + 1

/-- The number of levels of the deepest expression in a list. -/
def Expr.levelsEach : List Expr → Nat
  | [] => 0
  | first :: rest => max first.levels (Expr.levelsEach rest)

/-- The number of levels of the deepest key or value of a hash literal. -/
def Expr.levelsPairs : List (Expr × Expr) → Nat
  | [] => 0
  | (key, value) :: rest => max (max key.levels value.levels) (Expr.levelsPairs rest)

/-- The number of levels of the deepest expression in a block. -/
def Block.levels : Block → Nat
  | .mk _ statements => Statement.levelsAll statements

/-- The number of levels of the expression in a statement. -/
def Statement.levels : Statement → Nat
  | .binding _ _ value => value.levels
  | .returning _ value => value.levels
  | .expression _ value => value.levels

/-- The number of levels of the deepest expression in a list of statements. -/
def Statement.levelsAll : List Statement → Nat
  | [] => 0
  | first :: rest => max first.levels (Statement.levelsAll rest)

end

/-- The number of levels of the deepest expression in a program. -/
def Program.levels (program : Program) : Nat :=
  Statement.levelsAll program.statements

theorem Expr.levels_pos (expr : Expr) : 0 < expr.levels := by
  cases expr with
  | conditional _ _ _ alternative => cases alternative <;> exact Nat.succ_pos _
  | _ => exact Nat.succ_pos _

end MarmosetLang
