import TaskLoom.Description.Reader
import TaskLoom.Description.Reading
import TaskLoom.Graph.Program

/-!
# Descriptions

A description lists the tasks of a program with their ports, children and streams, the categories
still being texts.  It is read from a data tree, and becomes a program if every category is known.
-/

namespace TaskLoom

namespace Description

structure PortEntry where
  name : String
  category : String
  type : String
  width : Int
  deriving DecidableEq, Repr

structure ArgEntry where
  category : String
  port : String
  deriving DecidableEq, Repr

structure InvocationEntry where
  step : Int
  args : List (String × ArgEntry)
  deriving DecidableEq, Repr

structure FifoEntry where
  depth : Int
  consumer : Option Endpoint
  producer : Option Endpoint
  deriving DecidableEq, Repr

structure TaskEntry where
  level : Level
  ports : List PortEntry
  children : List (String × List InvocationEntry)
  fifos : List (String × FifoEntry)
  deriving DecidableEq, Repr

end Description

structure Description where
  top : String
  tasks : List (String × Description.TaskEntry)
  deriving DecidableEq, Repr

namespace Description

/-! ### From a data tree -/

def readLevel : Value → Reading Level
  | .text s | .number (.source s) =>
    if s == Level.leaf.text then .ok .leaf
    else if s == Level.composite.text then .ok .composite
    else .noted s!"task level {Text.quote s}: {Kind.malformed.text}"
  | v => v.readInt.map fun i => if i = 1 then .composite else .leaf

/-- Why written digits are no index. -/
def indexFault : NumeralFault → String
  | .malformed => "invalid syntax"
  | .outOfRange => "value out of range"

/-- The number in a pair of a task and a number. -/
def readIndex : Value → Reading Int
  | .number (.double x) =>
    if x.isWhole && x.toWord == x.truncate then .ok x.truncate
    else .noted s!"endpoint index {Value.shownQuantity (.double x)} is not an integer"
  | .number (.int i) => .ok i
  | .number (.source s) =>
    match Numeral.signed s.toList with
    | .ok i => .ok i
    | .error e =>
      .noted s!"endpoint index {s}: strconv.ParseInt: parsing {Text.quote s}: {indexFault e}"
  | v => .noted s!"endpoint index must be a number, got {v.shown}"

/-- One side of a stream: a pair of a task and a number, or a record. -/
def readEndpoint : Value → Reading (Option Endpoint)
  | .null => .ok none
  | .list [.text task, index] => (readIndex index).map fun i => some ⟨task, i⟩
  | .list [task, _] => .noted s!"endpoint task must be a string, got {task.shown}"
  | .list vs => .noted s!"endpoint must be [task, index], got {(Value.list vs).shown}"
  | .object ms =>
    (fun task index => some ⟨task, index⟩) <$> (Value.memberNamed ms "Task").readText
      <*> (Value.memberNamed ms "Index").readInt
  | _ => .unfit

def readPort : Value → Reading PortEntry :=
  Value.readRecord fun ms =>
    PortEntry.mk <$> (Value.memberNamed ms "name").readText <*>
      (Value.memberNamed ms "cat").readText <*> (Value.memberNamed ms "type").readText <*>
      (Value.memberNamed ms "width").readInt

def readArg : Value → Reading ArgEntry :=
  Value.readRecord fun ms =>
    ArgEntry.mk <$> (Value.memberNamed ms "cat").readText <*>
      (Value.memberNamed ms "port").readText

def readInvocation : Value → Reading InvocationEntry :=
  Value.readRecord fun ms =>
    InvocationEntry.mk <$> (Value.memberNamed ms "step").readInt <*>
      (Value.memberNamed ms "args").readTable readArg

def readFifo : Value → Reading FifoEntry :=
  Value.readRecord fun ms =>
    FifoEntry.mk <$> (Value.memberNamed ms "depth").readInt <*>
      readEndpoint (Value.memberNamed ms "consumed_by") <*>
      readEndpoint (Value.memberNamed ms "produced_by")

def readTask : Value → Reading TaskEntry :=
  Value.readRecord fun ms =>
    TaskEntry.mk <$> readLevel (Value.memberNamed ms "level") <*>
      (Value.memberNamed ms "ports").readList readPort <*>
      (Value.memberNamed ms "tasks").readTable (Value.readList readInvocation) <*>
      (Value.memberNamed ms "fifos").readTable readFifo

def read : Value → Reading Description :=
  Value.readRecord fun ms =>
    Description.mk <$> (Value.memberNamed ms "top").readText <*>
      (Value.memberNamed ms "tasks").readTable readTask

/-! ### To a program -/

/-- A category text that names no category, and where it stands. -/
inductive Issue where
  | port (task name : String) (cause : UnknownCategory)
  | arg (task placed name : String) (cause : UnknownCategory)
  deriving DecidableEq, Repr

def Issue.message : Issue → String
  | .port task name e => s!"task {task} port {name}: {e.message}"
  | .arg task placed name e => s!"task {task} instance {placed} arg {name}: {e.message}"

/-- The category that a text names; an unknown text stands for none. -/
def namedCategory (s : String) : Category := (Category.ofText? s).getD .scalar

/-- The issue of a text that names no category. -/
def categoryIssue (s : String) (issue : UnknownCategory → Issue) : List Issue :=
  if (Category.ofText? s).isSome then [] else [issue ⟨s⟩]

def InvocationEntry.issues (task placed : String) (v : InvocationEntry) : List Issue :=
  v.args.flatMap fun (name, a) => categoryIssue a.category (.arg task placed name)

def TaskEntry.issues (task : String) (t : TaskEntry) : List Issue :=
  t.ports.flatMap (fun p => categoryIssue p.category (.port task p.name)) ++
  t.children.flatMap fun (child, vs) =>
    (vs.mapIdx fun i v => v.issues task (instanceName child i)).flatten

/-- All category texts that name no category, task by task in the order of their names. -/
def issues (d : Description) : List Issue :=
  (Text.sortedBy Prod.fst d.tasks).flatMap fun (name, t) => t.issues name

def PortEntry.toPort (p : PortEntry) : TaskPort :=
  ⟨p.name, namedCategory p.category, p.type, p.width⟩

def InvocationEntry.toInvocation (v : InvocationEntry) : Invocation :=
  ⟨v.step, v.args.map fun (name, a) => ⟨name, namedCategory a.category, a.port⟩⟩

/-- A task of a program; a child that is never placed is no child. -/
def TaskEntry.toTask (name : String) (t : TaskEntry) : Task where
  name := name
  level := t.level
  ports := t.ports.map PortEntry.toPort
  childTable := (t.children.filter fun (_, vs) => !vs.isEmpty).map fun (child, vs) =>
    ⟨child, vs.map InvocationEntry.toInvocation⟩
  fifoTable := t.fifos.map fun (f, e) => ⟨f, e.depth, e.producer, e.consumer⟩

end Description

/-- Why a description gives no program. -/
inductive DescriptionError where
  | unreadable (faults : List Fault)
  | missingTop
  | categories (found : List Description.Issue)
  deriving DecidableEq, Repr

namespace DescriptionError

def kind : DescriptionError → Kind
  | .unreadable _ => .malformed
  | .missingTop => .malformed
  | .categories _ => .unsupportedCategory

def message : DescriptionError → String
  | .unreadable _ => s!"graph: <decode error>: {Kind.malformed.text}"
  | .missingTop => s!"graph: missing top task: {Kind.malformed.text}"
  | .categories _ => "graph: <issues>"

/-- The notes on faults, each as far as its first line goes, in order. -/
def notes (faults : List Fault) : List String :=
  Text.sorted (faults.filterMap fun f => f.note.map fun s =>
    String.ofList (s.toList.takeWhile (· != '\n')))

/-- The texts of issues in order. -/
def issueTexts (found : List Description.Issue) : List String :=
  Text.sorted (found.map Description.Issue.message)

end DescriptionError

instance : Failure DescriptionError := ⟨fun e => some e.kind, DescriptionError.message⟩

namespace Description

/-- The program that a description describes. -/
def toProgram (d : Description) : Except DescriptionError Program :=
  if d.top == "" then .error .missingTop
  else if !d.issues.isEmpty then .error (.categories d.issues)
  else .ok ⟨d.top, d.tasks.map fun (name, t) => t.toTask name⟩

/-- The program that a data tree describes. -/
def ofValue (v : Value) : Except DescriptionError Program :=
  match read v.distinct with
  | .ok d => d.toProgram
  | .faulty fs => .error (.unreadable fs)

/-- How the numbers of a text are understood. -/
inductive NumberStyle where
  | double
  | source
  | int
  deriving DecidableEq, Repr

def NumberStyle.apply : NumberStyle → Quantity → Option Quantity
  | .double => Quantity.toDouble?
  | .source => some
  | .int => some ∘ Quantity.toInt

/-- Only an object, or nothing at all, describes a program. -/
def isRoot : Value → Bool
  | .null => true
  | .object _ => true
  | _ => false

/-- The tree of a text that describes a program. -/
def tree? (style : NumberStyle) (s : String) : Option Value :=
  ((Value.ofText? s).bind (Value.mapNumbers? style.apply)).filter isRoot

/-- The program that a text describes. -/
def parse (style : NumberStyle) (s : String) : Except DescriptionError Program :=
  match tree? style s with
  | some v => ofValue v
  | none => .error (.unreadable [{}])

end Description

end TaskLoom
