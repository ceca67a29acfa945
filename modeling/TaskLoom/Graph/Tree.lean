import TaskLoom.Graph.Program

/-!
# The instance tree

The instances below the top task as a tree that is drawn with lines.  Each composite lists its
streams before its instances.
-/

namespace TaskLoom

/-- A tree of labels, each with a tag in brackets. -/
inductive LabelTree where
  | node (tag label : String) (below : List LabelTree)
  deriving Repr, Inhabited

namespace LabelTree

/-- A label with the lines after its first one moved to the right. -/
def shifted (margin label : String) : String :=
  String.intercalate ("\n" ++ margin) ((Text.splitOn '\n' label.toList).map String.ofList)

mutual

/-- A node that is or is not the last one below its parent, drawn behind a margin. -/
def draw (margin : String) (isLast : Bool) : LabelTree → String
  | .node tag label below =>
    let deeper := margin ++ (if isLast then "    " else "│   ")
    margin ++ (if isLast then "└──" else "├──") ++ " [" ++ tag ++ "]  " ++ shifted deeper label ++
      "\n" ++ drawAll deeper below

/-- The nodes below one parent. -/
def drawAll (margin : String) : List LabelTree → String
  | [] => ""
  | [t] => draw margin true t
  | t :: u :: ts => draw margin false t ++ drawAll margin (u :: ts)

end

end LabelTree

def Fifo.label (f : Fifo) : String :=
  let side : Option Endpoint → String
    | none => "(parent)"
    | some e => e.instanceName
  let depth := if f.isExternal then "external" else s!"depth {f.depth}"
  s!"{f.name} {side f.producer} -> {side f.consumer} ({depth})"

def Instance.tag (i : Instance) : String :=
  (if i.task.isComposite then "composite" else "leaf") ++ (if i.isAutorun then ", autorun" else "")

namespace Program

/-- What stands below a task in the tree.  The first argument bounds the depth. -/
def subtrees (p : Program) : Nat → Task → Except GraphError (List LabelTree)
  | 0, _ => .ok []
  | depth + 1, t => do
    let placed ← p.instances t
    let below ← placed.mapM fun i => do
      let inner ← if i.task.isComposite then p.subtrees depth i.task else pure []
      return LabelTree.node i.tag (i.name ++ ": " ++ i.task.name) inner
    return t.fifos.map (fun f => LabelTree.node "fifo" f.label []) ++ below

/-- The drawing of the instances below the top task. -/
def drawing (p : Program) : Except GraphError String := do
  let top ← p.topTask
  let below ← p.subtrees (p.taskTable.length + 1) top
  return top.name ++ "\n" ++ LabelTree.drawAll "" below

end Program

end TaskLoom
