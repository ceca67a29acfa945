import TaskLoom.Graph.Check
import TaskLoom.Graph.Tree
import TaskLoom.Proofs.Description.Decoding

/-!
# Programs with their tables in another order

Tasks, children, arguments and streams are kept in no particular order, and `Program.Rearranged`
relates programs that differ in nothing else.  They have one sorted form (`sorted_eq`).  Each
accessor gives the same for a program and for its sorted form, and so do the order of composition
(`compositeOrder_sorted`), the check (`issues_sorted`) and the drawing (`drawing_sorted`).
-/

namespace TaskLoom

structure Invocation.Rearranged (v w : Invocation) : Prop where
  step : v.step = w.step
  args : v.args.Perm w.args

structure Child.Rearranged (c d : Child) : Prop where
  task : c.task = d.task
  invocations : List.Forall₂ Invocation.Rearranged c.invocations d.invocations

structure Task.Rearranged (t u : Task) : Prop where
  name : t.name = u.name
  level : t.level = u.level
  ports : t.ports = u.ports
  children : SameEntries Child.Rearranged t.childTable u.childTable
  fifos : t.fifoTable.Perm u.fifoTable

/-- Programs that differ in the order of their tasks, children, arguments and streams. -/
structure Program.Rearranged (p q : Program) : Prop where
  top : p.top = q.top
  tasks : SameEntries Task.Rearranged p.taskTable q.taskTable

def Invocation.sorted (v : Invocation) : Invocation :=
  { v with args := Text.sortedBy Arg.name v.args }

def Child.sorted (c : Child) : Child :=
  { c with invocations := c.invocations.map Invocation.sorted }

def Task.sorted (t : Task) : Task :=
  { t with childTable := t.children.map Child.sorted, fifoTable := t.fifos }

/-- The program with everything in it in the order of the names. -/
def Program.sorted (p : Program) : Program := { p with taskTable := p.tasks.map Task.sorted }

def Instance.sorted (i : Instance) : Instance := { i with task := i.task.sorted }

section
variable {p q : Program}

theorem Invocation.sorted_eq {v w : Invocation} (hnd : (v.args.map Arg.name).Nodup)
    (h : v.Rearranged w) : v.sorted = w.sorted := by
  rw [sorted, sorted, h.step, Text.sortedBy_of_perm hnd h.args]

theorem Child.sorted_eq {c d : Child}
    (hnd : ∀ v ∈ c.invocations, (v.args.map Arg.name).Nodup) (h : c.Rearranged d) :
    c.sorted = d.sorted := by
  have hinvocations :
      c.invocations.map Invocation.sorted = d.invocations.map Invocation.sorted := by
    rw [← List.forall₂_eq_eq_eq, List.forall₂_map_left_iff, List.forall₂_map_right_iff]
    refine (List.forall₂_and_left _ _ |>.2 ⟨hnd, h.invocations⟩).imp fun v w hvw => ?_
    exact Invocation.sorted_eq hvw.1 hvw.2
  rw [sorted, sorted, h.task, hinvocations]

theorem Task.sorted_eq {t u : Task} (hchildren : (t.childTable.map Child.task).Nodup)
    (hargs : ∀ c ∈ t.childTable, ∀ v ∈ c.invocations, (v.args.map Arg.name).Nodup)
    (hfifos : (t.fifoTable.map Fifo.name).Nodup) (h : t.Rearranged u) : t.sorted = u.sorted := by
  have hsorted := h.children.sortedBy (fun _ _ h => h.task) hchildren
  have hboth : t.children.map Child.sorted = u.children.map Child.sorted := by
    rw [← List.forall₂_eq_eq_eq, List.forall₂_map_left_iff, List.forall₂_map_right_iff]
    have hmem : ∀ c ∈ t.children, ∀ v ∈ c.invocations, (v.args.map Arg.name).Nodup :=
      fun c hc => hargs c (Text.mem_sortedBy.1 hc)
    refine (List.forall₂_and_left _ _ |>.2 ⟨hmem, hsorted⟩).imp fun c d hcd => ?_
    exact Child.sorted_eq hcd.1 hcd.2
  have hstreams : t.fifos = u.fifos := Text.sortedBy_of_perm hfifos h.fifos
  rw [sorted, sorted, hboth, hstreams, h.name, h.level, h.ports]

namespace Program

/-- Programs that differ in the order of their tables have one sorted form. -/
theorem sorted_eq (hp : p.Decoded) (h : p.Rearranged q) : p.sorted = q.sorted := by
  have hsorted := h.tasks.sortedBy (fun _ _ h => h.name) hp.tasks
  have htasks : p.tasks.map Task.sorted = q.tasks.map Task.sorted := by
    rw [← List.forall₂_eq_eq_eq, List.forall₂_map_left_iff, List.forall₂_map_right_iff]
    have hmem : ∀ t ∈ p.tasks, t ∈ p.taskTable := fun t ht => Text.mem_sortedBy.1 ht
    refine (List.forall₂_and_left _ _ |>.2 ⟨hmem, hsorted⟩).imp fun t u htu => ?_
    exact Task.sorted_eq (hp.children t htu.1) (hp.args t htu.1) (hp.fifos t htu.1) htu.2
  rw [sorted, sorted, htasks, h.top]

end Program

end

/-! ### Accessors -/

namespace Task

variable (t : Task)

theorem children_sorted : t.sorted.children = t.children.map Child.sorted := by
  rw [children, sorted, Text.sortedBy_map Child.task Child.task Child.sorted fun _ => rfl,
    children, Text.sortedBy_sortedBy]

theorem childNames_sorted : t.sorted.childNames = t.childNames := by
  rw [childNames, children_sorted, List.map_map]
  rfl

theorem fifos_sorted : t.sorted.fifos = t.fifos := Text.sortedBy_sortedBy _ _

theorem fifoNames_sorted : t.sorted.fifoNames = t.fifoNames := by
  rw [fifoNames, fifos_sorted, fifoNames]

theorem fifo?_sorted (name : String) : t.sorted.fifo? name = t.fifo? name :=
  Text.find?_sortedBy name

theorem invocations?_sorted (child : String) :
    t.sorted.invocations? child = (t.invocations? child).map (List.map Invocation.sorted) := by
  have hfind : t.children.find? (·.task == child) = t.childTable.find? (·.task == child) :=
    Text.find?_sortedBy child
  rw [invocations?, sorted, List.find?_map, invocations?, ← hfind, Option.map_map, Option.map_map]
  rfl

end Task

namespace Program

variable (p : Program)

theorem tasks_sorted : p.sorted.tasks = p.tasks.map Task.sorted := by
  rw [tasks, sorted, Text.sortedBy_map Task.name Task.name Task.sorted fun _ => rfl, tasks,
    Text.sortedBy_sortedBy]

theorem taskNames_sorted : p.sorted.taskNames = p.taskNames := by
  rw [taskNames, tasks_sorted, List.map_map]
  rfl

theorem length_taskTable_sorted : p.sorted.taskTable.length = p.taskTable.length := by
  rw [sorted, List.length_map, tasks, Text.length_sortedBy]

theorem task?_sorted (name : String) : p.sorted.task? name = (p.task? name).map Task.sorted := by
  have hfind : p.tasks.find? (·.name == name) = p.taskTable.find? (·.name == name) :=
    Text.find?_sortedBy name
  rw [task?, sorted, List.find?_map, task?, ← hfind]
  rfl

theorem topTask_sorted : p.sorted.topTask = p.topTask.map Task.sorted := by
  rw [topTask, show p.sorted.top = p.top from rfl, task?_sorted, topTask]
  cases p.task? p.top <;> rfl

theorem instancesOf_sorted (t : Task) (vs : List Invocation) :
    instancesOf t.sorted (vs.map Invocation.sorted) = (instancesOf t vs).map Instance.sorted := by
  rw [instancesOf, instancesOf]
  refine List.ext_getElem (by simp) fun i hi hi' => ?_
  simp [Invocation.sorted, Instance.sorted, Text.sortedBy_sortedBy]

theorem placedChildren_sorted (parent : String) (cs : List Child) :
    p.sorted.placedChildren parent (cs.map Child.sorted) =
      (p.placedChildren parent cs).map (List.map Instance.sorted) := by
  induction cs with
  | nil => rfl
  | cons c cs ih =>
    rw [List.map_cons, placedChildren, placedChildren, ih]
    rw [show c.sorted.task = c.task from rfl, task?_sorted]
    cases p.task? c.task with
    | none => rfl
    | some t =>
      have hinstances := instancesOf_sorted t c.invocations
      cases p.placedChildren parent cs with
      | error e => rfl
      | ok placed =>
        simp only [Option.map_some, Except.map, bind, Except.bind, pure, Except.pure,
          List.map_append]
        rw [← hinstances]
        rfl

theorem instances_sorted (t : Task) :
    p.sorted.instances t.sorted = (p.instances t).map (List.map Instance.sorted) := by
  rw [instances, instances, t.children_sorted]
  exact p.placedChildren_sorted t.name _

theorem find?_map_sorted (placed : List Instance) (e : Endpoint) :
    ((placed.map Instance.sorted).find? fun i =>
        i.task.name == e.task && (i.index : Int) == e.index) =
      (placed.find? fun i => i.task.name == e.task && (i.index : Int) == e.index).map
        Instance.sorted := by
  rw [List.find?_map]
  rfl

theorem resolve_sorted (t : Task) (fifo : String) (e : Option Endpoint) :
    p.sorted.resolve t.sorted fifo e =
      (p.resolve t fifo e).map fun side => (side.1.sorted, side.2) := by
  cases e with
  | none => rfl
  | some e =>
    have hcount : ((t.sorted.invocations? e.task).getD []).length =
        ((t.invocations? e.task).getD []).length := by
      rw [t.invocations?_sorted]
      cases t.invocations? e.task <;> simp
    simp only [resolve, hcount, instances_sorted, show t.sorted.name = t.name from rfl]
    split
    · rfl
    · cases p.instances t with
      | error e => rfl
      | ok placed =>
        simp only [Except.map, bind, Except.bind, pure, Except.pure, find?_map_sorted]
        cases placed.find? _ with
        | none => rfl
        | some i =>
          simp only [Option.map_some, show i.sorted.arg? fifo = i.arg? fifo from rfl]
          cases i.arg? fifo with
          | none => rfl
          | some a =>
            dsimp only
            by_cases hs : a.category.isStream = true
            · rw [if_pos hs, if_pos hs]
            · rw [if_neg hs, if_neg hs]
              rfl

end Program

def Visit.sorted (v : Visit) : Visit := { v with order := v.order.map Task.sorted }

namespace Program

variable (p : Program)

theorem visitChildren_sorted {visit visit' : Task → Visit → Except GraphError Visit}
    (hvisit : ∀ t v, visit' t.sorted v.sorted = (visit t v).map Visit.sorted) (parent : String)
    (names : List String) (v : Visit) :
    p.sorted.visitChildren visit' parent names v.sorted =
      (p.visitChildren visit parent names v).map Visit.sorted := by
  induction names generalizing v with
  | nil => rfl
  | cons name names ih =>
    rw [visitChildren, visitChildren, task?_sorted]
    cases p.task? name with
    | none => rfl
    | some child =>
      simp only [Option.map_some, hvisit]
      cases visit child v with
      | error e => rfl
      | ok w => exact ih w

theorem visit_sorted (depth : Nat) (path : List String) (t : Task) (v : Visit) :
    p.sorted.visit depth path t.sorted v.sorted = (p.visit depth path t v).map Visit.sorted := by
  induction depth generalizing path t v with
  | zero => rfl
  | succ depth ih =>
    have hchildren := p.visitChildren_sorted (ih (path ++ [t.name])) t.name t.childNames v
    rw [visit, visit, t.childNames_sorted, show t.sorted.name = t.name from rfl,
      show t.sorted.isComposite = t.isComposite from rfl,
      show v.sorted.finished = v.finished from rfl]
    split
    · rfl
    split
    · rfl
    split
    · rfl
    · simp only [hchildren]
      cases p.visitChildren (p.visit depth (path ++ [t.name])) t.name t.childNames v with
      | error e => rfl
      | ok w => simp [Except.map, bind, Except.bind, pure, Except.pure, Visit.sorted]

theorem compositeOrder_sorted :
    p.sorted.compositeOrder = p.compositeOrder.map (List.map Task.sorted) := by
  rw [compositeOrder, compositeOrder, topTask_sorted, length_taskTable_sorted]
  cases p.topTask with
  | error e => rfl
  | ok top =>
    have hvisit := p.visit_sorted (p.taskTable.length + 1) [] top {}
    simp only [Except.map, bind, Except.bind, show ({} : Visit).sorted = {} from rfl] at hvisit ⊢
    rw [hvisit]
    cases p.visit (p.taskTable.length + 1) [] top {} <;> rfl

end Program

/-! ### Checking -/

theorem Task.argIssues_sorted (t : Task) (i : Instance) (a : Arg) :
    t.sorted.argIssues i.sorted a = t.argIssues i a := by
  rw [argIssues, argIssues, streamIssues, streamIssues, t.fifo?_sorted]
  rfl

theorem memoryUsers_sorted (placed : List Instance) (arg : String) :
    memoryUsers (placed.map Instance.sorted) arg = memoryUsers placed arg := by
  rw [memoryUsers, List.flatMap_map]
  rfl

theorem sharedMemoryIssues_sorted (task : String) (placed : List Instance) :
    sharedMemoryIssues task (placed.map Instance.sorted) = sharedMemoryIssues task placed := by
  have hnames : memoryNames (placed.map Instance.sorted) = memoryNames placed := by
    rw [memoryNames, List.flatMap_map]
    rfl
  simp only [sharedMemoryIssues, hnames, memoryUsers_sorted]

namespace Program

variable (p : Program)

theorem fifoIssues_sorted (t : Task) (f : Fifo) :
    p.sorted.fifoIssues t.sorted f = p.fifoIssues t f := by
  simp only [fifoIssues, p.resolve_sorted]
  congr 3
  funext e
  cases p.resolve t f.name (some e) <;> rfl

theorem compositeIssues_sorted (t : Task) :
    p.sorted.compositeIssues t.sorted = p.compositeIssues t := by
  have hundefined (c : String) :
      (if (p.sorted.task? c).isSome then [] else [Issue.undefinedTask t.name c]) =
        if (p.task? c).isSome then [] else [Issue.undefinedTask t.name c] := by
    rw [task?_sorted, Option.isSome_map]
  rw [compositeIssues, compositeIssues, p.instances_sorted, t.childNames_sorted,
    t.fifos_sorted, show t.sorted.name = t.name from rfl, funext hundefined]
  cases p.instances t with
  | error e => rfl
  | ok placed =>
    have hargs :
        (placed.map Instance.sorted).flatMap (fun i => i.args.flatMap (t.sorted.argIssues i)) =
        placed.flatMap fun i => i.args.flatMap (t.argIssues i) := by
      rw [List.flatMap_map]
      refine congrArg (List.flatMap · placed) (funext fun i => ?_)
      exact congrArg (List.flatMap · i.args) (funext fun a => t.argIssues_sorted i a)
    simp only [Except.map, hargs, sharedMemoryIssues_sorted, funext (p.fifoIssues_sorted t)]

theorem taskIssues_sorted (t : Task) : p.sorted.taskIssues t.sorted = p.taskIssues t := by
  have hchildren : t.sorted.childTable.isEmpty = t.childTable.isEmpty := by
    rw [Bool.eq_iff_iff, List.isEmpty_iff, List.isEmpty_iff, Task.sorted, List.map_eq_nil_iff,
      Task.children, Text.sortedBy_eq_nil]
  have hfifos : t.sorted.fifoTable.isEmpty = t.fifoTable.isEmpty := by
    rw [Bool.eq_iff_iff, List.isEmpty_iff, List.isEmpty_iff, Task.sorted, Task.fifos,
      Text.sortedBy_eq_nil]
  rw [taskIssues, taskIssues, p.compositeIssues_sorted, hchildren, hfifos]
  rfl

theorem issues_sorted : p.sorted.issues = p.issues := by
  have htasks : p.sorted.tasks.flatMap p.sorted.taskIssues = p.tasks.flatMap p.taskIssues := by
    rw [tasks_sorted, List.flatMap_map]
    exact congrArg (List.flatMap · p.tasks) (funext p.taskIssues_sorted)
  rw [issues, issues, task?_sorted, htasks, p.compositeOrder_sorted,
    show p.sorted.top = p.top from rfl]
  cases p.task? p.top with
  | none => rfl
  | some top =>
    simp only [Option.map_some, show top.sorted.isComposite = top.isComposite from rfl,
      show top.sorted.name = top.name from rfl]
    cases p.compositeOrder <;> rfl

theorem check_sorted : Program.check (some p.sorted) = Program.check (some p) := by
  rw [check, check, p.issues_sorted]

theorem subtrees_sorted (depth : Nat) (t : Task) :
    p.sorted.subtrees depth t.sorted = p.subtrees depth t := by
  induction depth generalizing t with
  | zero => rfl
  | succ depth ih =>
    rw [subtrees, subtrees, p.instances_sorted, t.fifos_sorted]
    cases p.instances t with
    | error e => rfl
    | ok placed =>
      simp only [Except.map, bind, Except.bind, List.mapM_map]
      congr 2
      funext i
      rw [Function.comp_apply, show i.sorted.task = i.task.sorted from rfl, ih]
      rfl

theorem drawing_sorted : p.sorted.drawing = p.drawing := by
  rw [drawing, drawing, topTask_sorted, length_taskTable_sorted]
  cases p.topTask with
  | error e => rfl
  | ok top => simp only [Except.map, bind, Except.bind, subtrees_sorted]; rfl

end Program

end TaskLoom
