import TaskLoom.Graph.Program

/-!
# The order of composition

The composite tasks below the top task are composed children first.  They are found by a
depth-first walk that visits the children of a task by name; a task that is met again below itself
stops the walk.
-/

namespace TaskLoom

/-- How far a walk has come: the tasks that are finished, and the composite ones among them in the
order of their completion. -/
structure Visit where
  finished : List String := []
  order : List Task := []
  deriving Repr, Inhabited

namespace Program

/-- Visits children one after the other. -/
def visitChildren (p : Program) (visit : Task → Visit → Except GraphError Visit) (parent : String) :
    List String → Visit → Except GraphError Visit
  | [], v => .ok v
  | name :: names, v =>
    match p.task? name with
    | none => .error (.undefinedTask parent name)
    | some child => do p.visitChildren visit parent names (← visit child v)

/-- Visits a task below the tasks on `path`, the top first.  The first argument bounds the depth of
the walk. -/
def visit (p : Program) : Nat → List String → Task → Visit → Except GraphError Visit
  | 0, _, _, v => .ok v
  | depth + 1, path, t, v =>
    if v.finished.contains t.name then .ok v
    else if path.contains t.name then .error (.selfInstantiation t.name (path ++ [t.name]))
    else if !t.isComposite then .ok { v with finished := t.name :: v.finished }
    else do
      let below := path ++ [t.name]
      let v ← p.visitChildren (p.visit depth below) t.name t.childNames v
      return ⟨t.name :: v.finished, v.order ++ [t]⟩

/-- The composite tasks below the top task and the top task itself, children first.  No path is
longer than the number of tasks, since the tasks on it are different. -/
def compositeOrder (p : Program) : Except GraphError (List Task) := do
  let top ← p.topTask
  let v ← p.visit (p.taskTable.length + 1) [] top {}
  return v.order

end Program

end TaskLoom
