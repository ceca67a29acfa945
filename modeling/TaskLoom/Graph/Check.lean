import TaskLoom.Graph.Order

/-!
# Checking a program

A program is well formed if every reference leads somewhere, every stream has the sides that its
kind needs, and every argument is bound consistently.  All problems are found, not only the first.
-/

namespace TaskLoom

/-- One problem of a program. -/
inductive Issue where
  | undefinedTop (name : String)
  | leafAtTop (task : String)
  | leafWithChildren (task : String)
  | undefinedTask (parent child : String)
  | badCategory (placed arg : String) (category : Category)
  | missingPort (placed arg : String)
  | noFifo (placed arg task : String)
  | wrongSide (placed arg role : String)
  | undeclaredPort (placed arg task : String)
  | categoryClash (placed arg : String) (bound declared : Category)
  | sharedMemory (task arg : String) (users : List String)
  | negativeDepth (fifo task : String) (depth : Int)
  | danglingEndpoint (fifo task placed : String)
  | externalSides (fifo task : String)
  | internalSides (fifo task : String)
  | order (e : GraphError)
  deriving DecidableEq, Repr

def Issue.kind : Issue → Kind
  | .badCategory .. => .unsupportedCategory
  | _ => .malformed

def Issue.cause : Issue → String
  | .undefinedTop name => s!"top task {Text.quote name} is not defined"
  | .leafAtTop t => s!"top task {t} must be composite"
  | .leafWithChildren t => s!"leaf task {t} must not have children or fifos"
  | .undefinedTask parent child => s!"task {parent} instantiates undefined task {child}"
  | .badCategory i a c => s!"{i}.{a}: category {c.text}"
  | .missingPort i a => s!"{i}.{a}: missing child port"
  | .noFifo i a t => s!"{i}.{a}: no fifo named {a} in {t}"
  | .wrongSide i a role => s!"{i}.{a}: instance is not the {role} of fifo {a}"
  | .undeclaredPort i a t => s!"{i}.{a}: {t} declares no port {a}"
  | .categoryClash i a bound declared =>
    s!"{i}.{a}: {bound.text} argument bound to {declared.text} port"
  | .sharedMemory t a users =>
    s!"task {t}: mmap argument {a} is shared by " ++ String.intercalate ", " users
  | .negativeDepth f t d => s!"fifo {f} in {t}: negative depth {d}"
  | .danglingEndpoint f t i => s!"fifo {f} in {t}: dangling endpoint {i}"
  | .externalSides f t => s!"external fifo {f} in {t} must have exactly one endpoint"
  | .internalSides f t => s!"fifo {f} in {t} needs a producer and a consumer"
  | .order e => e.cause

def Issue.message (i : Issue) : String := i.cause ++ ": " ++ i.kind.text

/-- Whether the name of an argument is a constant, as far as checking goes. -/
def looksConstant (name : String) : Bool := name.toList.contains '\''

/-- The instance must be the side of the stream that its argument says. -/
def Task.streamIssues (t : Task) (i : Instance) (a : Arg) : List Issue :=
  match t.fifo? a.name with
  | none => [.noFifo i.name a.name t.name]
  | some f =>
    let (side, role) :=
      if a.category == .ostream then (f.producer, "producer") else (f.consumer, "consumer")
    if side == some ⟨i.task.name, i.index⟩ then [] else [.wrongSide i.name a.name role]

/-- A scalar or a memory must be a declared port of the parent, unless it is a constant or the
parent declares nothing. -/
def Task.parentPortIssues (t : Task) (i : Instance) (a : Arg) : List Issue :=
  if t.ports.isEmpty || looksConstant a.name then []
  else match t.port? a.name with
    | none => [.undeclaredPort i.name a.name t.name]
    | some p =>
      if p.category.isMmap != a.category.isMmap then
        [.categoryClash i.name a.name a.category p.category]
      else []

def Task.argIssues (t : Task) (i : Instance) (a : Arg) : List Issue :=
  if !a.category.isValid then [.badCategory i.name a.name a.category]
  else if a.port == "" then [.missingPort i.name a.name]
  else if a.category.isStream then t.streamIssues i a
  else t.parentPortIssues i a

/-- Who uses a memory, in the order of the instances; only bound arguments count. -/
def memoryUsers (placed : List Instance) (arg : String) : List String :=
  placed.flatMap fun i =>
    (i.args.filter fun a => a.name == arg && a.category.isMmap && a.port != "").map fun _ => i.name

/-- The names of the memories that instances use, each once and in order. -/
def memoryNames (placed : List Instance) : List String :=
  let names := placed.flatMap fun i =>
    (i.args.filter fun a => a.category.isMmap && a.port != "").map Arg.name
  (Text.sorted names).eraseDups

def sharedMemoryIssues (task : String) (placed : List Instance) : List Issue :=
  (memoryNames placed).flatMap fun arg =>
    let users := memoryUsers placed arg
    if 1 < users.length then [.sharedMemory task arg users] else []

def Program.fifoIssues (p : Program) (t : Task) (f : Fifo) : List Issue :=
  let sides := [f.producer, f.consumer].filterMap id
  (if f.depth < 0 then [.negativeDepth f.name t.name f.depth] else []) ++
  sides.flatMap (fun e =>
    match p.resolve t f.name (some e) with
    | .ok _ => []
    | .error _ => [.danglingEndpoint f.name t.name e.instanceName]) ++
  (if f.isExternal then if sides.length == 1 then [] else [.externalSides f.name t.name]
   else if sides.length == 2 then [] else [.internalSides f.name t.name])

def Program.compositeIssues (p : Program) (t : Task) : List Issue :=
  let undefined := t.childNames.flatMap fun c =>
    if (p.task? c).isSome then [] else [.undefinedTask t.name c]
  match p.instances t with
  | .error _ => undefined
  | .ok placed =>
    undefined ++
    placed.flatMap (fun i => i.args.flatMap (t.argIssues i)) ++
    sharedMemoryIssues t.name placed ++
    t.fifos.flatMap (p.fifoIssues t)

def Program.taskIssues (p : Program) (t : Task) : List Issue :=
  if t.isComposite then p.compositeIssues t
  else if t.childTable.isEmpty && t.fifoTable.isEmpty then []
  else [.leafWithChildren t.name]

/-- The problems of a program.  The order of composition is looked at only if there is no other
problem. -/
def Program.issues (p : Program) : List Issue :=
  match p.task? p.top with
  | none => [.undefinedTop p.top]
  | some top =>
    let found :=
      (if top.isComposite then [] else [.leafAtTop top.name]) ++
        p.tasks.flatMap p.taskIssues
    if !found.isEmpty then found
    else match p.compositeOrder with
      | .ok _ => []
      | .error e => [.order e]

/-- Why a program is not accepted. -/
inductive CheckError where
  | noProgram
  | issues (found : List Issue)
  deriving DecidableEq, Repr

/-- A list of texts, one point each. -/
def pointList (points : List String) : String :=
  let head :=
    if points.length == 1 then "1 error occurred:" else s!"{points.length} errors occurred:"
  head ++ "\n\t" ++ String.intercalate "\n\t" (points.map ("* " ++ ·)) ++ "\n\n"

def CheckError.message : CheckError → String
  | .noProgram => "no program provided for validation"
  | .issues found =>
    s!"validation failed with {found.length} issue(s): {pointList (found.map Issue.message)}"

def CheckError.kind? : CheckError → Option Kind
  | .noProgram => none
  | .issues found => Kind.leading? (found.map Issue.kind)

instance : Failure CheckError := ⟨CheckError.kind?, CheckError.message⟩

/-- Accepts a program without problems. -/
def Program.check : Option Program → Except CheckError Unit
  | none => .error .noProgram
  | some p => if p.issues.isEmpty then .ok () else .error (.issues p.issues)

end TaskLoom
