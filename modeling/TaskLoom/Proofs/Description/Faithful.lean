import TaskLoom.Proofs.Graph.StreamSides

/-!
# A description becomes its program, or all its unknown categories

`Description.Holds` says which category text stands where in a description.  The issues of a
description are the unknown texts among these, place by place and none of them twice
(`places_of_issues`).  A description without unknown texts becomes a program in which every task
reads back as it was described (`Described`), and whose instances are the records of the children
(`Lists`).  Main statement: `ofValue_faithful`.
-/

namespace TaskLoom

namespace Program

variable {p : Program}

theorem task?_isSome {name : String} : (p.task? name).isSome = true ↔ name ∈ p.taskNames := by
  rw [task?, List.find?_isSome, mem_taskNames]
  simp only [beq_iff_eq]

theorem task?_of_mem (hp : p.Decoded) {t : Task} (ht : t ∈ p.taskTable) : p.task? t.name = some t := by
  obtain ⟨u, hu⟩ := Option.isSome_iff_exists.1 (task?_isSome.2 (mem_taskNames.2 ⟨t, ht, rfl⟩))
  rw [hu, List.inj_on_of_nodup_map hp.tasks (mem_of_task? hu) ht (name_of_task? hu)]

theorem defined_of_placedChildren {parent : String} {cs : List Child} {placed : List Instance}
    (h : p.placedChildren parent cs = .ok placed) :
    ∀ c ∈ cs, (p.task? c.task).isSome = true := by
  induction cs generalizing placed with
  | nil => simp
  | cons c cs ih =>
    rw [placedChildren] at h
    cases hc : p.task? c.task with
    | none => simp [hc] at h
    | some u =>
      cases hr : p.placedChildren parent cs with
      | error e => simp [hc, hr, bind, Except.bind] at h
      | ok rest =>
        intro d hd
        rcases List.mem_cons.1 hd with rfl | hd
        · simp [hc]
        · exact ih hr d hd

end Program

namespace Description

/-- A place where a description has a category text. -/
inductive Place where
  | port (task : String) (position : Nat)
  | arg (task child : String) (index : Nat) (name : String)
  deriving DecidableEq, Repr

/-- The task of a place. -/
def Place.owner : Place → String
  | .port task _ => task
  | .arg task _ _ _ => task

/-- The description has a category text at a place, which messages describe in words. -/
inductive Holds (d : Description) : Place → String → String → Prop where
  | port {task : String} {e : TaskEntry} {position : Nat} {q : PortEntry}
      (he : (task, e) ∈ d.tasks) (hq : e.ports[position]? = some q) :
      Holds d (.port task position) q.category s!"task {task} port {q.name}"
  | arg {task child name : String} {e : TaskEntry} {vs : List InvocationEntry} {index : Nat}
      {v : InvocationEntry} {a : ArgEntry} (he : (task, e) ∈ d.tasks)
      (hc : (child, vs) ∈ e.children) (hv : vs[index]? = some v) (ha : (name, a) ∈ v.args) :
      Holds d (.arg task child index name) a.category
        s!"task {task} instance {instanceName child index} arg {name}"

/-- One category text with its place, and the issue that it is if it names no category. -/
structure Held where
  place : Place
  text : String
  issue : UnknownCategory → Issue

namespace Held

def issues (h : Held) : List Issue := categoryIssue h.text h.issue

def isUnknown (h : Held) : Bool := !(Category.ofText? h.text).isSome

def ofArgs (task child : String) (index : Nat) (v : InvocationEntry) : List Held :=
  v.args.map fun (name, a) =>
    ⟨.arg task child index name, a.category, .arg task (instanceName child index) name⟩

def ofTask (task : String) (e : TaskEntry) : List Held :=
  (e.ports.zipIdx.map fun (q, i) => ⟨.port task i, q.category, .port task q.name⟩) ++
    e.children.flatMap fun (child, vs) => vs.zipIdx.flatMap fun (v, i) => ofArgs task child i v

end Held

/-- All category texts of a description, task by task in the order of their names. -/
def held (d : Description) : List Held :=
  (Text.sortedBy Prod.fst d.tasks).flatMap fun (name, e) => Held.ofTask name e

section
variable {d : Description} {task child w : String} {e : TaskEntry} {h : Held} {q : Place}

theorem issues_ofArgs (task child : String) (index : Nat) (v : InvocationEntry) :
    (Held.ofArgs task child index v).flatMap Held.issues =
      v.issues task (instanceName child index) := by
  rw [Held.ofArgs, List.flatMap_map]
  rfl

theorem issues_ofTask (task : String) (e : TaskEntry) :
    (Held.ofTask task e).flatMap Held.issues = e.issues task := by
  have hports : (e.ports.zipIdx.map fun (q, i) =>
        (⟨.port task i, q.category, .port task q.name⟩ : Held)).flatMap Held.issues =
      e.ports.flatMap fun q => categoryIssue q.category (.port task q.name) := by
    conv_rhs => rw [← List.zipIdx_map_fst 0 e.ports]
    rw [List.flatMap_map, List.flatMap_map]
    rfl
  rw [Held.ofTask, List.flatMap_append, hports, TaskEntry.issues, List.flatMap_assoc]
  simp only [List.flatMap_assoc, issues_ofArgs, List.mapIdx_eq_zipIdx_map, ← List.flatMap_def]

/-- The issues of a description are those of its category texts. -/
theorem issues_held (d : Description) : d.held.flatMap Held.issues = d.issues := by
  rw [held, List.flatMap_assoc, issues]
  simp only [issues_ofTask]

theorem mem_ofArgs {index : Nat} {v : InvocationEntry} :
    h ∈ Held.ofArgs task child index v ↔ ∃ name a, (name, a) ∈ v.args ∧
      h = ⟨.arg task child index name, a.category, .arg task (instanceName child index) name⟩ := by
  simp [Held.ofArgs, eq_comm]

theorem mem_ofTask : h ∈ Held.ofTask task e ↔
    (∃ i q, e.ports[i]? = some q ∧ h = ⟨.port task i, q.category, .port task q.name⟩) ∨
      ∃ child vs i v, (child, vs) ∈ e.children ∧ vs[i]? = some v ∧
        h ∈ Held.ofArgs task child i v := by
  rw [Held.ofTask, List.mem_append]
  refine or_congr ⟨fun hh => ?_, ?_⟩ ⟨fun hh => ?_, ?_⟩
  · obtain ⟨⟨q, i⟩, hq, rfl⟩ := List.mem_map.1 hh
    exact ⟨i, q, List.mem_zipIdx_iff_getElem?.1 hq, rfl⟩
  · rintro ⟨i, q, hq, rfl⟩
    exact List.mem_map.2 ⟨(q, i), List.mem_zipIdx_iff_getElem?.2 hq, rfl⟩
  · obtain ⟨⟨child, vs⟩, hc, hh⟩ := List.mem_flatMap.1 hh
    obtain ⟨⟨v, i⟩, hv, hh⟩ := List.mem_flatMap.1 hh
    exact ⟨child, vs, i, v, hc, List.mem_zipIdx_iff_getElem?.1 hv, hh⟩
  · rintro ⟨child, vs, i, v, hc, hv, hh⟩
    exact List.mem_flatMap.2 ⟨(child, vs), hc,
      List.mem_flatMap.2 ⟨(v, i), List.mem_zipIdx_iff_getElem?.2 hv, hh⟩⟩

theorem holds_of_mem (hh : h ∈ d.held) : ∃ w, d.Holds h.place h.text w ∧
    ∀ c, (h.issue c).message = w ++ ": " ++ c.message := by
  obtain ⟨⟨task, e⟩, he, hh⟩ := List.mem_flatMap.1 hh
  rw [Text.mem_sortedBy] at he
  rcases mem_ofTask.1 hh with ⟨i, q, hq, rfl⟩ | ⟨child, vs, i, v, hc, hv, hh⟩
  · exact ⟨_, .port he hq, fun c => rfl⟩
  · obtain ⟨name, a, ha, rfl⟩ := mem_ofArgs.1 hh
    exact ⟨_, .arg he hc hv ha, fun c => rfl⟩

theorem mem_of_holds {text : String} (hh : d.Holds q text w) :
    ∃ h ∈ d.held, h.place = q ∧ h.text = text := by
  cases hh with
  | port he hq =>
    exact ⟨_, List.mem_flatMap.2 ⟨_, Text.mem_sortedBy.2 he, mem_ofTask.2 (.inl ⟨_, _, hq, rfl⟩)⟩,
      rfl, rfl⟩
  | arg he hc hv ha =>
    exact ⟨_, List.mem_flatMap.2 ⟨_, Text.mem_sortedBy.2 he, mem_ofTask.2 (.inr ⟨_, _, _, _, hc,
      hv, mem_ofArgs.2 ⟨_, _, ha, rfl⟩⟩)⟩, rfl, rfl⟩

/-! ### Each place once -/

/-- Two texts stand at different places. -/
def Held.Apart (a b : Held) : Prop := a.place ≠ b.place

theorem pairwise_zipIdx {α : Type} (xs : List α) : xs.zipIdx.Pairwise fun a b => a.2 ≠ b.2 := by
  rw [← List.pairwise_map (f := Prod.snd) (R := (· ≠ ·)), List.zipIdx_map_snd]
  exact List.nodup_range'

theorem apart_ofTask (he : e.Distinct) (task : String) :
    (Held.ofTask task e).Pairwise Held.Apart := by
  refine List.pairwise_append.2 ⟨?_, List.pairwise_flatMap.2 ⟨fun c hc => ?_, ?_⟩, ?_⟩
  · refine List.pairwise_map.2 ((pairwise_zipIdx _).imp fun hij he => hij ?_)
    exact (Place.port.inj he).2
  · refine List.pairwise_flatMap.2 ⟨fun v hv => List.pairwise_map.2 ?_,
      (pairwise_zipIdx _).imp fun hij a ha b hb he => hij ?_⟩
    · have hnames := List.pairwise_map.1 (he.args c hc v.1 (by
        rw [← List.zipIdx_map_fst 0 c.2]
        exact List.mem_map_of_mem hv))
      exact hnames.imp fun hne he => hne (Place.arg.inj he).2.2.2
    · obtain ⟨x, a, -, rfl⟩ := mem_ofArgs.1 ha
      obtain ⟨y, b, -, rfl⟩ := mem_ofArgs.1 hb
      exact (Place.arg.inj he).2.2.1
  · refine (List.pairwise_map.1 he.children).imp fun hne a ha b hb he => hne ?_
    obtain ⟨v, -, ha⟩ := List.mem_flatMap.1 ha
    obtain ⟨v', -, hb⟩ := List.mem_flatMap.1 hb
    obtain ⟨x, a, -, rfl⟩ := mem_ofArgs.1 ha
    obtain ⟨y, b, -, rfl⟩ := mem_ofArgs.1 hb
    exact (Place.arg.inj he).2.1
  · intro a ha b hb he
    obtain ⟨q, -, rfl⟩ := List.mem_map.1 ha
    obtain ⟨c, -, hb⟩ := List.mem_flatMap.1 hb
    obtain ⟨v, -, hb⟩ := List.mem_flatMap.1 hb
    obtain ⟨y, b, -, rfl⟩ := mem_ofArgs.1 hb
    cases he

theorem owner_of_mem (hh : h ∈ Held.ofTask task e) : h.place.owner = task := by
  rcases mem_ofTask.1 hh with ⟨i, q, -, rfl⟩ | ⟨child, vs, i, v, -, -, ha⟩
  · rfl
  · obtain ⟨name, a, -, rfl⟩ := mem_ofArgs.1 ha
    rfl

theorem nodup_places (hnames : (d.tasks.map Prod.fst).Nodup)
    (htasks : ∀ e ∈ d.tasks, e.2.Distinct) : (d.held.map Held.place).Nodup := by
  have hapart : d.held.Pairwise Held.Apart := by
    refine List.pairwise_flatMap.2 ⟨fun e he =>
      apart_ofTask (htasks e (Text.mem_sortedBy.1 he)) e.1, ?_⟩
    have hsorted := List.pairwise_map.1 (Text.nodup_sortedBy hnames)
    refine hsorted.imp fun hne a ha b hb he => hne ?_
    rw [← owner_of_mem ha, ← owner_of_mem hb, he]
  exact List.pairwise_map.2 hapart

/-- Each place of a description has one text. -/
theorem Holds.unique (hnames : (d.tasks.map Prod.fst).Nodup)
    (htasks : ∀ e ∈ d.tasks, e.2.Distinct) {text text' w' : String} (hh : d.Holds q text w)
    (hh' : d.Holds q text' w') : text = text' ∧ w = w' := by
  have hone {α : Type} {ms : List (String × α)} (hms : (ms.map Prod.fst).Nodup) {name : String}
      {x y : α} (hx : (name, x) ∈ ms) (hy : (name, y) ∈ ms) : x = y :=
    (Prod.mk.inj (List.inj_on_of_nodup_map hms hx hy rfl)).2
  cases hh with
  | port he hq =>
    cases hh' with
    | port he' hq' =>
      cases hone hnames he he'
      cases hq.symm.trans hq'
      exact ⟨rfl, rfl⟩
  | arg he hc hv ha =>
    cases hh' with
    | arg he' hc' hv' ha' =>
      cases hone hnames he he'
      cases hone (htasks _ he).children hc hc'
      cases hv.symm.trans hv'
      cases hone ((htasks _ he).args _ hc _ (List.mem_of_getElem? hv)) ha ha'
      exact ⟨rfl, rfl⟩

/-- The texts that name a category. -/
def categoryTexts : List String := ["scalar", "istream", "ostream", "mmap", "async_mmap"]

theorem ofText?_isSome {s : String} : (Category.ofText? s).isSome = true ↔ s ∈ categoryTexts := by
  have hnamed : categoryTexts = Category.named.map Category.text := rfl
  rw [Category.ofText?, List.find?_isSome, hnamed, List.mem_map]
  simp only [beq_iff_eq]

/-- The places with an unknown category. -/
def unknownPlaces (d : Description) : List Place :=
  (d.held.filter Held.isUnknown).map Held.place

theorem mem_unknownPlaces :
    q ∈ d.unknownPlaces ↔ ∃ s w, d.Holds q s w ∧ s ∉ categoryTexts := by
  have hunknown (h : Held) : h.isUnknown = true ↔ h.text ∉ categoryTexts := by
    rw [← ofText?_isSome, Held.isUnknown]
    simp
  constructor
  · intro hq
    obtain ⟨h, hh, rfl⟩ := List.mem_map.1 hq
    obtain ⟨hmem, hbad⟩ := List.mem_filter.1 hh
    obtain ⟨w, hw, -⟩ := holds_of_mem hmem
    exact ⟨h.text, w, hw, (hunknown h).1 hbad⟩
  · rintro ⟨s, w, hw, hbad⟩
    obtain ⟨h, hmem, rfl, rfl⟩ := mem_of_holds hw
    exact List.mem_map_of_mem (List.mem_filter.2 ⟨hmem, (hunknown h).2 hbad⟩)

theorem issues_eq_map (d : Description) :
    d.issues = (d.held.filter Held.isUnknown).map fun h => h.issue ⟨h.text⟩ := by
  rw [← issues_held]
  induction d.held with
  | nil => rfl
  | cons h hs ih =>
    rw [List.flatMap_cons, ih]
    cases hc : (Category.ofText? h.text).isSome <;>
      simp [Held.issues, categoryIssue, Held.isUnknown, hc]

/-- The issues of a description, place by place. -/
theorem issues_of_places (d : Description) :
    List.Forall₂ (fun q issue => ∃ s w, d.Holds q s w ∧
      issue.message = w ++ ": " ++ UnknownCategory.message ⟨s⟩) d.unknownPlaces d.issues := by
  rw [issues_eq_map, unknownPlaces, List.forall₂_map_left_iff, List.forall₂_map_right_iff,
    List.forall₂_same]
  intro h hh
  obtain ⟨w, hw, hmessage⟩ := holds_of_mem (List.mem_filter.1 hh).1
  exact ⟨h.text, w, hw, hmessage _⟩

theorem issues_eq_nil : d.issues = [] ↔ ∀ q s w, d.Holds q s w → s ∈ categoryTexts := by
  have hnone : d.issues = [] ↔ d.unknownPlaces = [] := by
    rw [issues_eq_map, unknownPlaces, List.map_eq_nil_iff, List.map_eq_nil_iff]
  rw [hnone, List.eq_nil_iff_forall_not_mem]
  simp only [mem_unknownPlaces, not_exists, not_and, not_not]

/-- A task reads back as it was described. -/
structure Described (e : TaskEntry) (t : Task) : Prop where
  level : t.level = e.level
  ports : t.ports.map (fun q => ⟨q.name, q.category.text, q.type, q.width⟩) = e.ports
  fifos : t.fifoTable.map (fun f => (f.name, ⟨f.depth, f.consumer, f.producer⟩)) = e.fifos

/-- The instances of a task are the records of its children, in order. -/
structure Lists (p : Program) (e : TaskEntry) (placed : List Instance) : Prop where
  ordered : placed.Pairwise Instance.Before
  mem_iff : ∀ c i, (∃ j ∈ placed, j.task.name = c ∧ j.index = i) ↔
    ∃ vs, (c, vs) ∈ e.children ∧ i < vs.length
  task : ∀ j ∈ placed, p.task? j.task.name = some j.task
  record : ∀ j ∈ placed, ∃ vs v, (j.task.name, vs) ∈ e.children ∧ vs[j.index]? = some v ∧
    j.step = v.step ∧ j.args.map (fun a => (a.name, ⟨a.category.text, a.port⟩)) =
      Text.sortedBy Prod.fst v.args
  args : ∀ j ∈ placed, Ascending (j.args.map Arg.name)

theorem text_namedCategory {s : String} (h : s ∈ categoryTexts) : (namedCategory s).text = s := by
  obtain ⟨c, hc⟩ := Option.isSome_iff_exists.1 (ofText?_isSome.2 h)
  rw [namedCategory, hc]
  simpa using List.find?_some hc

section
variable {name : String} (hknown : ∀ q s w, d.Holds q s w → s ∈ categoryTexts)
  (he : (name, e) ∈ d.tasks)
include hknown he

theorem described_toTask : Described e (e.toTask name) := by
  refine ⟨rfl, ?_, ?_⟩
  · rw [TaskEntry.toTask, List.map_map]
    refine (List.map_congr_left fun q hq => ?_).trans (List.map_id _)
    obtain ⟨i, hi⟩ := List.mem_iff_getElem?.1 hq
    simp [PortEntry.toPort, text_namedCategory (hknown _ _ _ (.port he hi))]
  · rw [TaskEntry.toTask, List.map_map]
    exact List.map_id _

theorem args_toInvocation {vs : List InvocationEntry} {c : String} {i : Nat} {v : InvocationEntry}
    (hc : (c, vs) ∈ e.children) (hv : vs[i]? = some v) :
    (Text.sortedBy Arg.name v.toInvocation.args).map
      (fun a => (a.name, ⟨a.category.text, a.port⟩)) = Text.sortedBy Prod.fst v.args := by
  rw [← Text.sortedBy_map Arg.name Prod.fst _ fun _ => rfl]
  refine congrArg (Text.sortedBy Prod.fst) ?_
  rw [InvocationEntry.toInvocation, List.map_map]
  refine (List.map_congr_left fun a ha => ?_).trans (List.map_id _)
  simp [text_namedCategory (hknown _ _ _ (.arg he hc hv ha))]

end

theorem mem_children_toTask {name : String} {c : Child} : c ∈ (e.toTask name).childTable ↔
    ∃ vs, (c.task, vs) ∈ e.children ∧ vs ≠ [] ∧
      c.invocations = vs.map InvocationEntry.toInvocation := by
  rw [TaskEntry.toTask, List.mem_map]
  constructor
  · rintro ⟨⟨child, vs⟩, hc, rfl⟩
    obtain ⟨hmem, hne⟩ := List.mem_filter.1 hc
    exact ⟨vs, hmem, by simpa using hne, rfl⟩
  · rintro ⟨vs, hmem, hne, hvs⟩
    exact ⟨(c.task, vs), List.mem_filter.2 ⟨hmem, by simpa using hne⟩, by simp [← hvs]⟩

end

section
variable {p : Program} {d : Description} {e : TaskEntry} {name : String} {placed : List Instance}

/-- The instances of a task are there exactly if the children that have records are defined. -/
theorem instances_toTask_iff : (∃ placed, p.instances (e.toTask name) = .ok placed) ↔
    ∀ c vs, (c, vs) ∈ e.children → vs ≠ [] → c ∈ p.taskNames := by
  constructor
  · rintro ⟨placed, h⟩ c vs hc hne
    have hmem : ⟨c, vs.map InvocationEntry.toInvocation⟩ ∈ (e.toTask name).childTable :=
      mem_children_toTask.2 ⟨vs, hc, hne, rfl⟩
    exact Program.task?_isSome.1
      (Program.defined_of_placedChildren h _ (Task.mem_children.2 hmem))
  · intro h
    refine Program.placedChildren_ok _ fun c hc => ?_
    obtain ⟨vs, hvs, hne, -⟩ := mem_children_toTask.1 (Task.mem_children.1 hc)
    exact Program.task?_isSome.2 (h c.task vs hvs hne)

theorem lists_toTask (hp : p.Decoded) (ht : e.toTask name ∈ p.taskTable)
    (hknown : ∀ q s w, d.Holds q s w → s ∈ categoryTexts) (he : (name, e) ∈ d.tasks)
    (h : p.instances (e.toTask name) = .ok placed) : Lists p e placed := by
  have hordered := Program.pairwise_instances (hp.children _ ht) h
  have hrecord : ∀ j ∈ placed, p.task? j.task.name = some j.task ∧ ∃ vs v,
      (j.task.name, vs) ∈ e.children ∧ vs[j.index]? = some v ∧ j.step = v.step ∧
      j.args = Text.sortedBy Arg.name v.toInvocation.args := by
    intro j hj
    obtain ⟨c, hc, htask, hj⟩ := (Program.mem_instances h).1 hj
    obtain ⟨vs, hvs, -, hinv⟩ := mem_children_toTask.1 hc
    obtain ⟨-, u, hu, hstep, hargs⟩ := Program.mem_instancesOf.1 hj
    rw [hinv, List.getElem?_map] at hu
    obtain ⟨v, hv, rfl⟩ := Option.map_eq_some_iff.1 hu
    rw [← Program.name_of_task? htask] at hvs
    exact ⟨Program.task?_name htask, vs, v, hvs, hv, hstep.symm, hargs.symm⟩
  refine ⟨hordered, fun c i => ⟨?_, ?_⟩, fun j hj => (hrecord j hj).1, fun j hj => ?_,
    fun j hj => Program.ascending_args (hp.args _ ht) h hj⟩
  · rintro ⟨j, hj, rfl, rfl⟩
    obtain ⟨-, vs, v, hvs, hv, -⟩ := hrecord j hj
    exact ⟨vs, hvs, (List.getElem?_eq_some_iff.1 hv).1⟩
  · rintro ⟨vs, hvs, hi⟩
    have hne : vs ≠ [] := List.ne_nil_of_length_pos (Nat.zero_lt_of_lt hi)
    obtain ⟨u, hu⟩ := Option.isSome_iff_exists.1
      (Program.task?_isSome.2 (instances_toTask_iff.1 ⟨placed, h⟩ c vs hvs hne))
    have hname := Program.name_of_task? hu
    refine ⟨⟨u, i, vs[i].step, Text.sortedBy Arg.name vs[i].toInvocation.args⟩, ?_, hname, rfl⟩
    refine (Program.mem_instances h).2 ⟨⟨c, vs.map InvocationEntry.toInvocation⟩,
      mem_children_toTask.2 ⟨vs, hvs, hne, rfl⟩, hu, Program.mem_instancesOf.2 ⟨rfl, ?_⟩⟩
    exact ⟨vs[i].toInvocation, by simp [hi], rfl, rfl⟩
  · obtain ⟨-, vs, v, hvs, hv, hstep, hargs⟩ := hrecord j hj
    exact ⟨vs, v, hvs, hv, hstep, hargs ▸ args_toInvocation hknown he hvs hv⟩

end

/-! ### Faithful programs -/

/-- A description with a top task gives no program exactly if some text at some place in it is not
one of the five category texts.  It then fails with one issue for each such place, which says where
the text stands and quotes it, no place being left out or coming twice; each place has one text.
Otherwise the program has the described tasks, and no other, each with the level, the ports and
the streams that were described.  The instances of a task are found exactly if all its children with
records are defined.  They are then one instance for each record, with the step of the record and
its arguments in the order of their names, and stand in the order of their tasks and numbers. -/
theorem ofValue_faithful {v : Value} {d : Description} (hread : read v.distinct = .ok d)
    (htop : d.top ≠ "") :
    ((∃ e, ofValue v = .error e) ↔ ∃ q s w, d.Holds q s w ∧ s ∉ categoryTexts) ∧
    (∀ e, ofValue v = .error e → ∃ found places, e = .categories found ∧ places.Nodup ∧
      (∀ q, q ∈ places ↔ ∃ s w, d.Holds q s w ∧ s ∉ categoryTexts) ∧
      List.Forall₂ (fun q issue => ∃ s w, d.Holds q s w ∧
        issue.message = w ++ ": " ++ UnknownCategory.message ⟨s⟩) places found) ∧
    (∀ q s w s' w', d.Holds q s w → d.Holds q s' w' → s = s' ∧ w = w') ∧
    ∀ p, ofValue v = .ok p → p.top = d.top ∧
      p.taskNames = Text.sorted (d.tasks.map Prod.fst) ∧
      ∀ name e, (name, e) ∈ d.tasks → ∃ t, p.task? name = some t ∧ Described e t ∧
        ((∃ placed, p.instances t = .ok placed) ↔
          ∀ c vs, (c, vs) ∈ e.children → vs ≠ [] → c ∈ p.taskNames) ∧
        ∀ placed, p.instances t = .ok placed → Lists p e placed := by
  obtain ⟨hnames, htasks⟩ := distinct_tasks v.distinct_distinct hread
  have hvalue : ofValue v = if d.issues = [] then
      .ok ⟨d.top, d.tasks.map fun (name, t) => t.toTask name⟩
      else .error (.categories d.issues) := by
    rw [ofValue, hread]
    by_cases hnil : d.issues = [] <;> simp [toProgram, htop, hnil]
  refine ⟨?_, fun e he => ?_, fun q s w s' w' h h' => h.unique hnames htasks h', fun p hp => ?_⟩
  · have hfails : (∃ e, ofValue v = .error e) ↔ ¬ d.issues = [] := by
      rw [hvalue]
      by_cases hnil : d.issues = [] <;> simp [hnil]
    rw [hfails, issues_eq_nil]
    simp only [not_forall, exists_prop]
  · rw [hvalue] at he
    split at he
    · cases he
    cases he
    exact ⟨d.issues, d.unknownPlaces, rfl,
      (nodup_places hnames htasks).sublist (List.filter_sublist.map _),
      fun q => mem_unknownPlaces, issues_of_places d⟩
  · have hdecoded := Program.decoded_of_ofValue hp
    rw [hvalue] at hp
    split at hp
    swap
    · cases hp
    rename_i hnil
    cases hp
    refine ⟨rfl, ?_, fun name e he => ?_⟩
    · rw [Program.taskNames, Program.tasks, Text.map_sortedBy, List.map_map]
      rfl
    have hknown := issues_eq_nil.1 hnil
    have ht : e.toTask name ∈ d.tasks.map fun (name, t) => t.toTask name :=
      List.mem_map.2 ⟨(name, e), he, rfl⟩
    exact ⟨e.toTask name, Program.task?_of_mem hdecoded ht, described_toTask hknown he,
      instances_toTask_iff, fun placed h => lists_toTask hdecoded ht hknown he h⟩

/-- What `Program.streamTree` describes, with the categories of its two arguments. -/
def streamDescription (writer reader : String) : Description where
  top := "Top"
  tasks := [("A", ⟨.leaf, [], [], []⟩), ("B", ⟨.leaf, [], [], []⟩), ("Top", ⟨.composite, [],
    [("A", [⟨0, [("q", ⟨writer, "q"⟩)]⟩]), ("B", [⟨0, [("q", ⟨reader, "q"⟩)]⟩])],
    [("q", ⟨2, some ⟨"B", 0⟩, some ⟨"A", 0⟩⟩)]⟩)]

/-- A description with two unknown categories fails with both of them; with known ones in their
places its program lists the two instances. -/
theorem ofValue_faithful_stream :
    (∃ found, ofValue (Program.streamTree "B"
        [("A", Program.streamUser "writer"), ("B", Program.streamUser "reader")]) =
        .error (.categories found) ∧ 2 ≤ found.length) ∧
    ∃ placed, (Program.aboveLeaves Program.straightTask).instances Program.straightTask =
      .ok placed ∧ ∃ j ∈ placed, j.task.name = "B" ∧ j.index = 0 := by
  have hbad : read (Program.streamTree "B"
      [("A", Program.streamUser "writer"), ("B", Program.streamUser "reader")]).distinct =
      .ok (streamDescription "writer" "reader") := rfl
  have hgood : read Program.straightTree.distinct =
      .ok (streamDescription "ostream" "istream") := rfl
  constructor
  · obtain ⟨hfails, hall, -⟩ := ofValue_faithful hbad (by decide)
    have hw := Holds.arg (d := streamDescription "writer" "reader") (.tail _ (.tail _ (.head _)))
      (.head _) (show _[0]? = some _ from rfl) (.head _)
    have hw' := Holds.arg (d := streamDescription "writer" "reader") (.tail _ (.tail _ (.head _)))
      (.tail _ (.head _)) (show _[0]? = some _ from rfl) (.head _)
    obtain ⟨e, he⟩ := hfails.2 ⟨_, _, _, hw, by decide⟩
    obtain ⟨found, places, rfl, -, hmem, hpairs⟩ := hall e he
    refine ⟨found, he, ?_⟩
    rw [← hpairs.length_eq]
    have hsub : [Place.arg "Top" "A" 0 "q", .arg "Top" "B" 0 "q"] ⊆ places := by
      simp only [List.cons_subset, List.nil_subset, and_true]
      exact ⟨(hmem _).2 ⟨_, _, hw, by decide⟩, (hmem _).2 ⟨_, _, hw', by decide⟩⟩
    exact (List.subperm_of_subset (by decide) hsub).length_le
  · obtain ⟨-, -, -, hprogram⟩ := ofValue_faithful hgood (by decide)
    obtain ⟨-, -, htasks⟩ := hprogram _ Program.ofValue_straightTree
    obtain ⟨t, ht, -, hok, hlists⟩ := htasks "Top" _ (.tail _ (.tail _ (.head _)))
    cases ht
    obtain ⟨placed, hplaced⟩ := hok.2 fun c vs hc _ => by
      rcases List.mem_cons.1 hc with hc | hc
      · cases hc
        decide
      · cases List.mem_singleton.1 hc
        decide
    exact ⟨placed, hplaced, ((hlists placed hplaced).mem_iff "B" 0).2
      ⟨_, .tail _ (.head _), Nat.zero_lt_one⟩⟩

end Description

end TaskLoom
