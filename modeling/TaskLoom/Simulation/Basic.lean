import Std.Data.HashMap
import TaskLoom.Failure
import TaskLoom.Hdl.Module
import TaskLoom.Simulation.Eval

/-!
# Simulation

The control logic of a module, run clock edge by clock edge.  Cells are opaque: what they drive is
set from outside.  After every change the continuous assignments are repeated until nothing moves.
-/

namespace TaskLoom

/-- What a simulation runs: the widths of the declared names, the continuous assignments, and the
blocks that are run at each edge. -/
structure Circuit where
  widths : Std.HashMap String Int
  assigns : List (String × Expr)
  blocks : List (List Stmt)

structure Simulator where
  circuit : Circuit
  values : Std.HashMap String UInt64
  cycle : Nat

inductive SimulationError where
  | undeclared (name : String)
  | unknownSignal (name : String)
  | driven (name : String)
  | unsettled
  deriving DecidableEq, Repr

def SimulationError.message : SimulationError → String
  | .undeclared name => s!"sim: assignment to undeclared {name}"
  | .unknownSignal name => s!"sim: unknown signal {name}"
  | .driven name => s!"sim: {name} is driven by an assignment"
  | .unsettled => "sim: combinational logic does not settle"

instance : Failure SimulationError := ⟨fun _ => none, SimulationError.message⟩

/-- The width that values of a declaration are cut to; a range without a width does not cut. -/
def BitRange.simulatedWidth (r : Option BitRange) : Int :=
  match BitRange.width r with
  | .ok w => if 64 < w then 64 else w
  | .error _ => 64

namespace Circuit

/-- The width of a name, none for one that is not declared. -/
def width (c : Circuit) (name : String) : Int := c.widths.getD name 0

def isDriven (c : Circuit) (name : String) : Bool := c.assigns.any (·.1 == name)

/-- The widths of the ports and signals of a module. -/
def widthsOf (m : Module) : Std.HashMap String Int :=
  let ports := m.ports.foldl (fun ws p => ws.insert p.name (BitRange.simulatedWidth p.range)) {}
  m.signals.foldl (fun ws s => ws.insert s.name (BitRange.simulatedWidth s.range)) ports

def assignsOf (ls : List Logic) : List (String × Expr) :=
  ls.filterMap fun
    | .assign target value => some (target, value)
    | .clocked .. => none

/-- The clocked blocks apart from those for simulators of the written text. -/
def blocksOf (ls : List Logic) : List (List Stmt) :=
  ls.filterMap fun
    | .clocked body false => some body
    | _ => none

/-- The circuit of a module, if every assignment has a declared target. -/
def ofModule (m : Module) : Except SimulationError Circuit :=
  let c : Circuit := ⟨widthsOf m, assignsOf m.logics, blocksOf m.logics⟩
  match c.assigns.find? fun a => !c.widths.contains a.1 with
  | some (target, _) => .error (.undeclared target)
  | none => .ok c

end Circuit

namespace Simulator

def get (s : Simulator) (name : String) : UInt64 := s.values.getD name 0

def env (s : Simulator) : Env := ⟨s.get, s.circuit.width⟩

/-- Stores a value, cut to the width of its name. -/
def put (s : Simulator) (name : String) (v : UInt64) : Simulator :=
  { s with values := s.values.insert name (Literal.mask v (s.circuit.width name)) }

/-! ### Settling -/

/-- Carries out one continuous assignment, and tells whether it changed anything. -/
def update (s : Simulator) (target : String) (value : Expr) : Simulator × Bool :=
  let v := Literal.mask (value.eval s.env) (s.circuit.width target)
  if s.get target = v then (s, false)
  else ({ s with values := s.values.insert target v }, true)

/-- Carries out assignments one after the other. -/
def pass (s : Simulator) : List (String × Expr) → Simulator × Bool
  | [] => (s, false)
  | (target, value) :: rest =>
    let (s, changed) := s.update target value
    let (s, changedLater) := s.pass rest
    (s, changed || changedLater)

/-- At most `n` passes, up to the first one that changes nothing. -/
def settleWithin (s : Simulator) : Nat → Simulator × Option SimulationError
  | 0 => (s, some .unsettled)
  | n + 1 =>
    match s.pass s.circuit.assigns with
    | (s, false) => (s, none)
    | (s, true) => s.settleWithin n

/-- Repeats the continuous assignments until nothing changes.  Logic without a cycle is done after
two passes more than there are assignments. -/
def settle (s : Simulator) : Simulator × Option SimulationError :=
  s.settleWithin (s.circuit.assigns.length + 2)

/-! ### Runs -/

/-- A simulation with all values zero, before it settles. -/
def initial (c : Circuit) : Simulator := ⟨c, {}, 0⟩

/-- A simulation of a module that has settled, or tried to. -/
def start (m : Module) : Except SimulationError (Simulator × Option SimulationError) :=
  (Circuit.ofModule m).map fun c => (initial c).settle

/-- Drives a name from outside. -/
def set (s : Simulator) (name : String) (v : UInt64) : Simulator × Option SimulationError :=
  if !s.circuit.widths.contains name then (s, some (.unknownSignal name))
  else if s.circuit.isDriven name then (s, some (.driven name))
  else (s.put name v).settle

/-- The values after a clock edge, before they settle: all blocks read the values before it. -/
def clock (s : Simulator) : Simulator :=
  let writes := s.circuit.blocks.flatMap (Stmt.allWrites s.env)
  { writes.foldl (fun s w => s.put w.1 w.2) s with cycle := s.cycle + 1 }

/-- One clock edge. -/
def step (s : Simulator) : Simulator × Option SimulationError := s.clock.settle

end Simulator

end TaskLoom
