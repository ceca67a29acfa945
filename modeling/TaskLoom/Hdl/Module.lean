import TaskLoom.Hdl.Logic
import TaskLoom.Hdl.Range
import TaskLoom.Text.Quoted

/-!
# Modules

A module grows at the ends of its regions: ports, parameters, signals, cells (instances of other
modules) and logic.  Whatever has a name is declared once: its name is entered in a table beside the
regions, and a name in the table is refused.  A declaration that fails leaves the module as it was.
-/

namespace TaskLoom

inductive Direction where
  | input
  | output
  | inout
  /-- A direction that is none of the three. -/
  | unknown
  deriving DecidableEq, Repr, Inhabited

structure Port where
  name : String
  direction : Direction := .input
  range : Option BitRange := none
  deriving DecidableEq, Repr, Inhabited

/-- A parameter, or a local parameter, which instances cannot set. -/
structure Param where
  name : String
  value : String
  range : Option BitRange := none
  isLocal : Bool := false
  deriving DecidableEq, Repr, Inhabited

inductive SignalKind where
  | wire
  | reg
  /-- A kind that is neither of the two. -/
  | unknown
  deriving DecidableEq, Repr, Inhabited

structure Signal where
  name : String
  kind : SignalKind := .wire
  range : Option BitRange := none
  /-- Attributes written in front of the declaration. -/
  attrs : List String := []
  deriving DecidableEq, Repr, Inhabited

/-- What a parameter or a port of a cell is bound to. -/
structure Binding where
  name : String
  arg : Expr
  deriving Repr, Inhabited

/-- An instance of another module. -/
structure Cell where
  module : String
  name : String
  params : List Binding := []
  ports : List Binding := []
  attrs : List String := []
  deriving Repr, Inhabited

/-- What can be added to a module. -/
inductive Item where
  | port (p : Port)
  | param (p : Param)
  | signal (s : Signal)
  | cell (c : Cell)
  | logic (l : Logic)
  deriving Repr, Inhabited

/-- What a name is declared as. -/
inductive DeclKind where
  | port
  | parameter
  | signal
  | cell
  deriving DecidableEq, Repr

structure Module where
  name : String
  /-- The source text of a module that is passed on unchanged; empty if there is none. -/
  verbatim : String := ""
  ports : List Port := []
  params : List Param := []
  signals : List Signal := []
  cells : List Cell := []
  logics : List Logic := []
  /-- The table of the declared names; a module that was not made by `Module.new` has none until the
  first name is declared. -/
  table : Option (List (String × DeclKind)) := none
  deriving Repr, Inhabited

namespace Module

/-- An empty module. -/
def new (name : String) : Module := { name := name, table := some [] }

section
variable (name : String)

@[simp] theorem new_ports : (new name).ports = [] := rfl

@[simp] theorem new_params : (new name).params = [] := rfl

@[simp] theorem new_signals : (new name).signals = [] := rfl

@[simp] theorem new_cells : (new name).cells = [] := rfl

@[simp] theorem new_logics : (new name).logics = [] := rfl

end

end Module

/-- The modules of one program and, among them, the position of the one at the top. -/
structure Design where
  modules : List Module := []
  top : Option Nat := none
  deriving Repr, Inhabited

def Design.topModule? (d : Design) : Option Module := d.top.bind (d.modules[·]?)

/-! ### Declared names -/

def DeclKind.text : DeclKind → String
  | .port => "port"
  | .parameter => "parameter"
  | .signal => "signal"
  | .cell => "instance"

/-- Why an item cannot be added to a module. -/
inductive BuildError where
  | emptyName (module : String) (kind : DeclKind)
  | alreadyDeclared (module : String) (kind : DeclKind) (name : String) (earlier : DeclKind)
  deriving DecidableEq, Repr

def BuildError.kind : BuildError → Kind
  | .emptyName .. => .malformed
  | .alreadyDeclared .. => .namingCollision

def BuildError.message : BuildError → String
  | e@(.emptyName m k) => s!"module {m}: empty {k.text} name: {e.kind.text}"
  | e@(.alreadyDeclared m k name earlier) =>
    s!"module {m}: {k.text} {Text.quote name} already declared as {earlier.text}: {e.kind.text}"

instance : Failure BuildError := ⟨fun e => some e.kind, BuildError.message⟩

/-- The declaration that an item makes; logic makes none. -/
def Item.declares? : Item → Option (DeclKind × String)
  | .port p => some (.port, p.name)
  | .param p => some (.parameter, p.name)
  | .signal s => some (.signal, s.name)
  | .cell c => some (.cell, c.name)
  | .logic _ => none

namespace Module

/-- The entries of the table; a table that is missing has none. -/
def entries (m : Module) : List (String × DeclKind) := m.table.getD []

/-- What a name is declared as in a module. -/
def kindOf? (m : Module) (name : String) : Option DeclKind := m.entries.lookup name

/-- Whether a name is in use. -/
def declared (m : Module) (name : String) : Bool := (m.kindOf? name).isSome

/-- Enters a name in the table, without any check. -/
def enter (m : Module) (kind : DeclKind) (name : String) : Module :=
  { m with table := some (m.entries ++ [(name, kind)]) }

/-- Declares a name, which must be new and not empty. -/
def declare (m : Module) (kind : DeclKind) (name : String) : Except BuildError Module :=
  if name == "" then .error (.emptyName m.name kind)
  else match m.kindOf? name with
    | some earlier => .error (.alreadyDeclared m.name kind name earlier)
    | none => .ok (m.enter kind name)

/-- Puts an item at the end of its region. -/
def place (m : Module) : Item → Module
  | .port p => { m with ports := m.ports ++ [p] }
  | .param p => { m with params := m.params ++ [p] }
  | .signal s => { m with signals := m.signals ++ [s] }
  | .cell c => { m with cells := m.cells ++ [c] }
  | .logic l => { m with logics := m.logics ++ [l] }

/-- Adds one item: its name is declared before it gets its place. -/
def add (m : Module) (item : Item) : Except BuildError Module := do
  match item.declares? with
  | some (kind, name) => return (← m.declare kind name).place item
  | none => return m.place item

/-- Adds items up to the first one that cannot be added: the module so far, and that failure. -/
def addUntil (m : Module) : List Item → Module × Option BuildError
  | [] => (m, none)
  | item :: items =>
    match m.add item with
    | .ok m' => m'.addUntil items
    | .error e => (m, some e)

/-- Adds all items. -/
def addAll (m : Module) (items : List Item) : Except BuildError Module :=
  match m.addUntil items with
  | (m', none) => .ok m'
  | (_, some e) => .error e

/-! ### Looking ports up -/

def port? (m : Module) (name : String) : Option Port := m.ports.find? (·.name == name)

def signal? (m : Module) (name : String) : Option Signal := m.signals.find? (·.name == name)

/-- The first port whose name has the given beginning and end. -/
def findPort? (m : Module) (head tail : String) : Option Port :=
  m.ports.find? fun p => Text.beginsWith p.name head && Text.endsWith p.name tail

end Module

/-- Turns an array-style name `a[3]` into `a_3` and leaves all other names alone. -/
def flatName (name : String) : String :=
  match name.toList.span (· != '[') with
  | (base, _ :: rest) =>
    let index := rest.dropLast
    if !base.isEmpty && rest.getLast? == some ']' && !index.isEmpty && index.all (·.isDigit) then
      String.ofList (base ++ '_' :: index)
    else name
  | _ => name

/-- A module lacks the port of an argument. -/
structure NoSuchPort where
  module : String
  argument : String
  role : String
  deriving DecidableEq, Repr

def NoSuchPort.message (e : NoSuchPort) : String :=
  s!"module {e.module} has no port {e.argument}{e.role}: {Kind.malformed.text}"

instance : Failure NoSuchPort := ⟨fun _ => some .malformed, NoSuchPort.message⟩

/-- What synthesis tools put between the name of an argument and the role of a port. -/
def portMarks : List String := ["_V", "_r", "_s", ""]

/-- The port of an argument in a given role, with the first mark that gives one. -/
def Module.portOf (m : Module) (argument role : String) : Except NoSuchPort Port :=
  match portMarks.findSome? fun mark => m.port? (flatName argument ++ mark ++ role) with
  | some p => .ok p
  | none => .error ⟨m.name, argument, role⟩

end TaskLoom
