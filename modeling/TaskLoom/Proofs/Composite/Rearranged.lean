import TaskLoom.Composite.Generate
import TaskLoom.Proofs.Graph.Rearranged

/-!
# Generation from a rearranged program

A generation meets the tasks, children, arguments and streams of a program through its accessors
only.  So a program and its sorted form give the same modules, the same errors and the same log:
first for one plan (`Plan.build_sorted`), then for one task, and by induction on the order of
composition for all of them (`generate_sorted`).
-/

namespace TaskLoom

def Placement.sorted (c : Placement) : Placement := { c with inst := c.inst.sorted }

/-- The plan with everything in it in the order of the names. -/
def Plan.sorted (p : Plan) : Plan :=
  { p with program := p.program.sorted, task := p.task.sorted
           children := p.children.map Placement.sorted }

namespace Plan

variable (p : Plan) (c : Placement)

theorem deriveArg_sorted (a : Arg) : p.sorted.deriveArg c.sorted a = p.deriveArg c a := by
  unfold deriveArg
  rw [show p.sorted.task = p.task.sorted from rfl, p.task.fifo?_sorted]
  rfl

theorem deriveInterface_sorted : p.sorted.deriveInterface = p.deriveInterface := by
  have hchildren : (p.sorted.children.forM fun c => c.inst.args.forM (p.sorted.deriveArg c)) =
      p.children.forM fun c => c.inst.args.forM (p.deriveArg c) := by
    rw [show p.sorted.children = p.children.map Placement.sorted from rfl, List.forM_eq_forM,
      List.forM_map]
    refine congrArg (forM p.children) (funext fun c => ?_)
    exact congrArg (List.forM c.inst.args) (funext fun a => p.deriveArg_sorted c a)
  unfold deriveInterface
  rw [hchildren]
  rfl

theorem declareInterface_sorted : p.sorted.declareInterface = p.declareInterface := by
  unfold declareInterface
  rw [deriveInterface_sorted]
  rfl

theorem streamWidth_sorted (f : Fifo) : p.sorted.streamWidth f = p.streamWidth f := by
  have hresolve (side : Option Endpoint) : p.sorted.program.resolve p.sorted.task f.name side =
      (p.program.resolve p.task f.name side).map fun end' => (end'.1.sorted, end'.2) :=
    p.program.resolve_sorted p.task f.name side
  unfold streamWidth
  simp only [hresolve]
  cases f.producer with
  | none => cases p.program.resolve p.task f.name f.consumer <;> rfl
  | some e => cases p.program.resolve p.task f.name (some e) <;> rfl

theorem addStream_sorted (f : Fifo) : p.sorted.addStream f = p.addStream f := by
  unfold addStream
  rw [streamWidth_sorted]
  rfl

theorem delayArg_sorted (a : Arg) : p.sorted.delayArg c.sorted a = p.delayArg c a := rfl

theorem delayArgs_sorted (as : List Arg) : p.sorted.delayArgs c.sorted as = p.delayArgs c as := by
  induction as with
  | nil => rfl
  | cons a as ih => rw [delayArgs, delayArgs, delayArg_sorted, ih]

theorem bindStream_sorted (a : Arg) (suffixes : List String) :
    bindStream c.sorted a suffixes = bindStream c a suffixes := by
  induction suffixes with
  | nil => rfl
  | cons suffix rest ih =>
    rw [bindStream, bindStream, ih]
    rfl

theorem bindArg_sorted (a : Arg) (tap : Expr) :
    p.sorted.bindArg c.sorted a tap = p.bindArg c a tap := by
  unfold bindArg
  rw [bindStream_sorted, bindStream_sorted]
  rfl

theorem bindArgs_sorted (taps : List (String × Pipeline)) (as : List Arg) :
    p.sorted.bindArgs c.sorted taps as = p.bindArgs c taps as := by
  induction as with
  | nil => rfl
  | cons a as ih => rw [bindArgs, bindArgs, bindArg_sorted, ih]

theorem requireControls_sorted (ports : List String) :
    requireControls c.sorted ports = requireControls c ports := by
  induction ports with
  | nil => rfl
  | cons port ports ih =>
    rw [requireControls, requireControls, ih]
    rfl

theorem addChild_sorted : p.sorted.addChild c.sorted = p.addChild c := by
  unfold addChild addHandshake
  rw [show c.sorted.inst.args = c.inst.args from rfl, delayArgs_sorted, requireControls_sorted]
  simp only [bindArgs_sorted]
  rfl

theorem addChildren_sorted (cs : List Placement) :
    p.sorted.addChildren (cs.map Placement.sorted) = p.addChildren cs := by
  induction cs with
  | nil => rfl
  | cons c cs ih => rw [List.map_cons, addChildren, addChildren, addChild_sorted, ih]

/-- A plan and its sorted form build the same module. -/
theorem build_sorted : p.sorted.build = p.build := by
  have hlength : p.sorted.children.length = p.children.length := List.length_map _
  have hfifos : p.sorted.task.fifoTable.length = p.task.fifoTable.length := Text.length_sortedBy
  unfold build
  rw [declareInterface_sorted, hlength, hfifos,
    show p.sorted.children = p.children.map Placement.sorted from rfl, addChildren_sorted,
    show p.sorted.task.fifos = p.task.fifos from p.task.fifos_sorted,
    funext p.addStream_sorted]
  rfl

end Plan

section
variable (o : Options) (program : Program) (parts : Parts)

theorem placements_sorted (task : String) (is : List Instance) :
    placements parts task (is.map Instance.sorted) =
      (placements parts task is).map (List.map Placement.sorted) := by
  induction is with
  | nil => rfl
  | cons i is ih =>
    rw [List.map_cons, placements, placements, ih]
    rw [show i.sorted.task.name = i.task.name from rfl]
    cases parts.module? i.task.name with
    | none => rfl
    | some m => cases placements parts task is <;> rfl

theorem plan_sorted (t : Task) :
    plan o program.sorted parts t.sorted = (plan o program parts t).map Plan.sorted := by
  unfold plan
  rw [program.instances_sorted, show t.sorted.isComposite = t.isComposite from rfl,
    show t.sorted.name = t.name from rfl]
  cases t.isComposite with
  | false => rfl
  | true =>
    cases program.instances t with
    | error e => rfl
    | ok placed =>
      simp only [Except.map, placements_sorted]
      cases placements parts t.name placed <;> rfl

theorem generateTask_sorted (t : Task) :
    generateTask o program.sorted parts t.sorted = generateTask o program parts t := by
  unfold generateTask
  rw [plan_sorted]
  cases plan o program parts t with
  | error e => rfl
  | ok p =>
    simp only [Except.map, p.build_sorted, show t.sorted.name = t.name from rfl]

theorem generateTasks_sorted (ts : List Task) :
    generateTasks o program.sorted parts (ts.map Task.sorted) =
      generateTasks o program parts ts := by
  induction ts generalizing parts with
  | nil => rfl
  | cons t ts ih =>
    rw [List.map_cons, generateTasks, generateTasks, generateTask_sorted]
    simp only [show t.sorted.name = t.name from rfl, ih]

/-- A program and its sorted form give the same design, modules and log, or fail with the same
error. -/
theorem generate_sorted : generate o program.sorted parts = generate o program parts := by
  unfold generate
  rw [program.compositeOrder_sorted]
  cases program.compositeOrder with
  | error e => rfl
  | ok order =>
    have htop : designOf program.sorted.top (order.map Task.sorted) = designOf program.top order := by
      funext modules
      rw [designOf, designOf, List.findIdx?_map]
      rfl
    simp only [Except.map, generateTasks_sorted, htop]

end

/-! ### Programs that cannot be told apart -/

/-- What an instance is, apart from what is inside its task. -/
def Instance.view (i : Instance) : String × Nat × Int × List Arg :=
  (i.task.name, i.index, i.step, i.args)

/-- Programs that give the same to everything that looks at them: the names of their tasks, of the
children and streams of each task, the instances, the order of composition, the outcome of the
check, the drawing, and all modules and messages of a generation. -/
structure Program.Indistinguishable (p q : Program) : Prop where
  taskNames : p.taskNames = q.taskNames
  childNames : ∀ n, (p.task? n).map Task.childNames = (q.task? n).map Task.childNames
  fifoNames : ∀ n, (p.task? n).map Task.fifoNames = (q.task? n).map Task.fifoNames
  instances : ∀ n, (p.task? n).map (fun t => (p.instances t).map (List.map Instance.view)) =
    (q.task? n).map fun t => (q.instances t).map (List.map Instance.view)
  compositeOrder : p.compositeOrder.map (List.map Task.name) =
    q.compositeOrder.map (List.map Task.name)
  check : Program.check (some p) = Program.check (some q)
  drawing : p.drawing = q.drawing
  generate : ∀ o parts, TaskLoom.generate o p parts = TaskLoom.generate o q parts

namespace Program

variable {p q r : Program}

theorem Indistinguishable.symm (h : p.Indistinguishable q) : q.Indistinguishable p :=
  ⟨h.taskNames.symm, fun n => (h.childNames n).symm, fun n => (h.fifoNames n).symm,
    fun n => (h.instances n).symm, h.compositeOrder.symm, h.check.symm, h.drawing.symm,
    fun o parts => (h.generate o parts).symm⟩

theorem Indistinguishable.trans (h : p.Indistinguishable q) (h' : q.Indistinguishable r) :
    p.Indistinguishable r :=
  ⟨h.taskNames.trans h'.taskNames, fun n => (h.childNames n).trans (h'.childNames n),
    fun n => (h.fifoNames n).trans (h'.fifoNames n),
    fun n => (h.instances n).trans (h'.instances n), h.compositeOrder.trans h'.compositeOrder,
    h.check.trans h'.check, h.drawing.trans h'.drawing,
    fun o parts => (h.generate o parts).trans (h'.generate o parts)⟩

theorem indistinguishable_sorted (p : Program) : p.sorted.Indistinguishable p where
  taskNames := p.taskNames_sorted
  childNames n := by
    rw [p.task?_sorted, Option.map_map]
    exact congrArg (Option.map · (p.task? n)) (funext Task.childNames_sorted)
  fifoNames n := by
    rw [p.task?_sorted, Option.map_map]
    exact congrArg (Option.map · (p.task? n)) (funext Task.fifoNames_sorted)
  instances n := by
    rw [p.task?_sorted, Option.map_map]
    refine congrArg (Option.map · (p.task? n)) (funext fun t => ?_)
    rw [Function.comp_apply, p.instances_sorted]
    cases p.instances t with
    | error e => rfl
    | ok placed => simp only [Except.map, List.map_map]; rfl
  compositeOrder := by
    rw [p.compositeOrder_sorted]
    cases p.compositeOrder with
    | error e => rfl
    | ok order => simp only [Except.map, List.map_map]; rfl
  check := p.check_sorted
  drawing := p.drawing_sorted
  generate o parts := generate_sorted o p parts

/-- Programs that differ in the order of their tables cannot be told apart. -/
theorem Rearranged.indistinguishable (hp : p.Decoded) (h : p.Rearranged q) :
    p.Indistinguishable q := by
  refine p.indistinguishable_sorted.symm.trans ?_
  rw [sorted_eq hp h]
  exact q.indistinguishable_sorted

end Program

end TaskLoom
