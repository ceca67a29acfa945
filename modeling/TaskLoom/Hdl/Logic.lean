import TaskLoom.Hdl.Expr

/-!
# Logic

Continuous assignments, and blocks that are run at each rising edge of the clock.
-/

namespace TaskLoom

/-- A statement of a clocked block. -/
inductive Stmt where
  /-- `target <= value`, effective after the edge. -/
  | assign (target : String) (value : Expr)
  | branch (cond : Expr) (onTrue onFalse : List Stmt)
  /-- The first arm whose pattern equals the subject is run. -/
  | select (subject : Expr) (arms : List (Expr × List Stmt))
  | display (format : String) (args : List Expr)
  deriving Repr, Inhabited

inductive Logic where
  /-- A continuous assignment. -/
  | assign (target : String) (value : Expr)
  /-- A block run at each rising clock edge, possibly in simulation only. -/
  | clocked (body : List Stmt) (simulationOnly : Bool)
  deriving Repr, Inhabited

end TaskLoom
