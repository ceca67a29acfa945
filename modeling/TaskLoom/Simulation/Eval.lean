import TaskLoom.Hdl.Literal
import TaskLoom.Hdl.Logic

/-!
# Evaluation

The value of an expression over given values and widths of its names, on 64-bit words.  Each
operator cuts its result to the width of its operands.
-/

namespace TaskLoom

/-- The values and widths of names. -/
structure Env where
  value : String → UInt64
  width : String → Int

/-- A truth value as a word. -/
def bitOf (b : Bool) : UInt64 := if b then 1 else 0

/-- A left shift; from 64 places on nothing is left. -/
def shiftLeft (a b : UInt64) : UInt64 := if b < 64 then a <<< b else 0

namespace BinaryOp

/-- The result of an operator on words of a width. -/
def apply (op : BinaryOp) (width : Int) (a b : UInt64) : UInt64 :=
  match op with
  | .eq => bitOf (a == b)
  | .sub => Literal.mask (a - b) width
  | .add => Literal.mask (a + b) width
  | .shl => Literal.mask (shiftLeft a b) width
  | .unknown => 0

end BinaryOp

namespace Expr

/-- The width of an expression; what has none of its own counts as 64 bits wide. -/
def width (ρ : Env) : Expr → Int
  | .ident name => ρ.width name
  | .const w _ => if 0 < w then w else 64
  | .unary .complement x => width ρ x
  | .unary .negation _ => 1
  | .binary .eq _ _ => 1
  | .binary _ x y => max (width ρ x) (width ρ y)
  | .all _ => 1
  | .absent => 64
  | .literal _ => 64

mutual

/-- The value of an expression. -/
def eval (ρ : Env) : Expr → UInt64
  | .absent => 0
  | .ident name => ρ.value name
  | .const w v => Literal.mask v w
  | .literal s => Literal.value s
  | .unary .complement x => Literal.mask (~~~ eval ρ x) (width ρ x)
  | .unary .negation x => bitOf (eval ρ x == 0)
  | .binary op x y => op.apply (max (width ρ x) (width ρ y)) (eval ρ x) (eval ρ y)
  | .all terms => bitOf (holdsAll ρ terms)

/-- Whether all terms are different from zero. -/
def holdsAll (ρ : Env) : List Expr → Bool
  | [] => true
  | t :: ts => eval ρ t != 0 && holdsAll ρ ts

end

end Expr

namespace Stmt

mutual

/-- The assignments that a statement makes, in order. -/
def writes (ρ : Env) : Stmt → List (String × UInt64)
  | .assign target value => [(target, value.eval ρ)]
  | .branch cond onTrue onFalse =>
    if cond.eval ρ != 0 then allWrites ρ onTrue else allWrites ρ onFalse
  | .select subject arms => armWrites ρ (subject.eval ρ) arms
  | .display .. => []

/-- The assignments of a block. -/
def allWrites (ρ : Env) : List Stmt → List (String × UInt64)
  | [] => []
  | s :: ss => writes ρ s ++ allWrites ρ ss

/-- The assignments of the first arm whose pattern has the given value. -/
def armWrites (ρ : Env) (subject : UInt64) :
    List (Expr × List Stmt) → List (String × UInt64)
  | [] => []
  | (pattern, body) :: arms =>
    if pattern.eval ρ == subject then allWrites ρ body else armWrites ρ subject arms

end

end Stmt

end TaskLoom
