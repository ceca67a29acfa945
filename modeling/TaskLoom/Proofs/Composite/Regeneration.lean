import TaskLoom.Composite.Generate
import TaskLoom.Proofs.Graph.Instances

/-!
# Generating again

A task reads the modules of its children and its own skeleton, and nothing else of the modules at
hand (`generateTask_eq`).  In an order with children first, every composite child of a task was
generated before it, so a generation reads no module of a composite task that it has not made
itself.  `Parts.Agree p made a b`: two stocks of modules that differ at most in composite tasks
outside `made`.  Generating a task keeps the agreement and adds the task to `made`.

Main statement: a generation does not depend on what composite tasks held before, changes nothing
else, and can be repeated without any effect (`generate_repeatable`).
-/

namespace TaskLoom

namespace Parts

variable {parts : Parts} {task : String} {m : Module}

theorem module?_attach (n : String) :
    (parts.attach task m).module? n = if n = task then some m else parts.module? n := by
  unfold module? attach
  rw [List.find?_cons]
  by_cases hn : n = task
  · simp [hn]
  · have hkeep : ∀ e : String × Module,
        decide ((e.1 != task) = true ∧ (e.1 == n) = true) = (e.1 == n) := by
      intro e
      by_cases he : e.1 = n
      · simp [he, hn]
      · simp [he]
    have hne : (task == n) = false := by simpa using Ne.symm hn
    simp only [hne, if_neg hn, List.find?_filter, hkeep]

/-- Attaches several modules one after the other. -/
def attachAll (parts : Parts) (ms : List (String × Module)) : Parts :=
  ms.foldl (fun q e => q.attach e.1 e.2) parts

theorem skeletons_attachAll (parts : Parts) (ms : List (String × Module)) :
    (parts.attachAll ms).skeletons = parts.skeletons := by
  induction ms generalizing parts with
  | nil => rfl
  | cons e ms ih => exact ih (parts.attach e.1 e.2)

theorem modules_attachAll (parts : Parts) {ms : List (String × Module)}
    (hnd : (ms.map Prod.fst).Nodup) : (parts.attachAll ms).modules =
      ms.reverse ++ parts.modules.filter fun e => !(ms.map Prod.fst).contains e.1 := by
  induction ms generalizing parts with
  | nil =>
    have hall : parts.modules.filter (fun _ => true) = parts.modules := List.filter_true _
    simp [attachAll, hall]
  | cons e ms ih =>
    rw [List.map_cons, List.nodup_cons] at hnd
    rw [show parts.attachAll (e :: ms) = (parts.attach e.1 e.2).attachAll ms from rfl, ih _ hnd.2]
    have hnew : (ms.map Prod.fst).contains e.1 = false := by simpa using hnd.1
    have hrest : ∀ x : String × Module, (!(ms.map Prod.fst).contains x.1 && x.1 != e.1) =
        !((e :: ms).map Prod.fst).contains x.1 := by
      intro x
      rw [List.map_cons, List.contains_cons, Bool.not_or, Bool.and_comm]
      rfl
    unfold attach
    rw [List.filter_cons, hnew, List.filter_filter]
    simp only [hrest, Bool.not_false, if_true, List.reverse_cons, List.append_assoc,
      List.singleton_append]

/-- Attaching modules of different tasks a second time changes nothing. -/
theorem attachAll_again (parts : Parts) {ms : List (String × Module)}
    (hnd : (ms.map Prod.fst).Nodup) :
    (parts.attachAll ms).attachAll ms = parts.attachAll ms := by
  have hgone : ms.reverse.filter (fun e => !(ms.map Prod.fst).contains e.1) = [] := by
    rw [List.filter_eq_nil_iff]
    intro e he
    have hmem : e.1 ∈ ms.map Prod.fst := List.mem_map_of_mem (List.mem_reverse.1 he)
    simpa using hmem
  have hmodules : ((parts.attachAll ms).attachAll ms).modules = (parts.attachAll ms).modules := by
    rw [modules_attachAll _ hnd, modules_attachAll _ hnd, List.filter_append, hgone,
      List.filter_filter]
    simp
  have hskeletons := skeletons_attachAll (parts.attachAll ms) ms
  cases h₁ : (parts.attachAll ms).attachAll ms
  cases h₂ : parts.attachAll ms
  simp_all

end Parts

/-! ### What a task reads -/

namespace Plan

variable (p : Plan) (q : Parts)

theorem delayArgs_parts (c : Placement) (as : List Arg) :
    Plan.delayArgs { p with parts := q } c as = p.delayArgs c as := by
  induction as with
  | nil => rfl
  | cons a as ih =>
    unfold delayArgs
    rw [ih]
    rfl

theorem bindArgs_parts (c : Placement) (taps : List (String × Pipeline)) (as : List Arg) :
    Plan.bindArgs { p with parts := q } c taps as = p.bindArgs c taps as := by
  induction as with
  | nil => rfl
  | cons a as ih =>
    unfold bindArgs
    rw [ih]
    rfl

theorem addChild_parts (c : Placement) :
    Plan.addChild { p with parts := q } c = p.addChild c := by
  unfold addChild
  simp only [delayArgs_parts, bindArgs_parts]

theorem addChildren_parts (cs : List Placement) :
    Plan.addChildren { p with parts := q } cs = p.addChildren cs := by
  induction cs with
  | nil => rfl
  | cons c cs ih =>
    unfold addChildren
    rw [ih, addChild_parts]

end Plan

/-- Two stocks of modules that a task cannot tell apart. -/
structure Parts.AlikeFor (t : Task) (a b : Parts) : Prop where
  skeleton : a.skeleton? t.name = b.skeleton? t.name
  module : ∀ n ∈ t.childNames, a.module? n = b.module? n

namespace Parts.AlikeFor

variable {o : Options} {program : Program} {t : Task} {a b : Parts}

theorem placements_eq (h : AlikeFor t a b) (parent : String) {insts : List Instance}
    (hi : ∀ i ∈ insts, i.task.name ∈ t.childNames) :
    placements a parent insts = placements b parent insts := by
  induction insts with
  | nil => rfl
  | cons i insts ih =>
    unfold placements
    rw [h.module _ (hi i List.mem_cons_self), ih fun j hj => hi j (List.mem_cons_of_mem _ hj)]

theorem streamWidth_eq (h : AlikeFor t a b) (cs : List Placement) (f : Fifo) :
    Plan.streamWidth ⟨o, program, a, t, cs⟩ f = Plan.streamWidth ⟨o, program, b, t, cs⟩ f := by
  unfold Plan.streamWidth
  simp only
  split
  · rfl
  · rename_i inst port hr
    -- the side of the stream is an instance of the task
    have hname : inst.task.name ∈ t.childNames := by
      cases hp : f.producer with
      | some e =>
        rw [hp] at hr
        obtain ⟨placed, hplaced, hmem, -⟩ := Program.resolve_ok hr
        exact Program.name_mem_childNames hplaced hmem
      | none =>
        rw [hp] at hr
        cases hc : f.consumer with
        | none =>
          rw [hc] at hr
          cases hr
        | some e =>
          rw [hc] at hr
          obtain ⟨placed, hplaced, hmem, -⟩ := Program.resolve_ok hr
          exact Program.name_mem_childNames hplaced hmem
    rw [h.module _ hname]

theorem build_eq (h : AlikeFor t a b) (cs : List Placement) :
    Plan.build ⟨o, program, a, t, cs⟩ = Plan.build ⟨o, program, b, t, cs⟩ := by
  have hinterface : Plan.declareInterface ⟨o, program, a, t, cs⟩ =
      Plan.declareInterface ⟨o, program, b, t, cs⟩ := by
    unfold Plan.declareInterface
    rw [show (⟨o, program, a, t, cs⟩ : Plan).parts.skeleton? t.name = b.skeleton? t.name from
      h.skeleton]
    rfl
  have hstream : Plan.addStream ⟨o, program, a, t, cs⟩ =
      Plan.addStream ⟨o, program, b, t, cs⟩ := by
    funext f
    unfold Plan.addStream
    rw [h.streamWidth_eq]
  have hchildren : Plan.addChildren ⟨o, program, a, t, cs⟩ cs =
      Plan.addChildren ⟨o, program, b, t, cs⟩ cs :=
    Plan.addChildren_parts ⟨o, program, b, t, cs⟩ a cs
  unfold Plan.build
  rw [hinterface, hstream, hchildren]
  rfl

/-- A task reads its skeleton and the modules of its children only. -/
theorem generateTask_eq (h : AlikeFor t a b) :
    generateTask o program a t = generateTask o program b t := by
  by_cases hcomp : t.isComposite = true
  · cases hinsts : program.instances t with
    | error e => simp [generateTask, plan, hcomp, hinsts]
    | ok insts =>
      have hcs := h.placements_eq t.name fun i hi => Program.name_mem_childNames hinsts hi
      cases hb : placements b t.name insts with
      | error e => simp [generateTask, plan, hcomp, hinsts, hcs, hb, bind, Except.bind]
      | ok cs =>
        simp [generateTask, plan, hcomp, hinsts, hcs, hb, bind, Except.bind, pure, Except.pure,
          h.build_eq]
  · simp [generateTask, plan, hcomp, bind, Except.bind, throw, throwThe, MonadExceptOf.throw]

end Parts.AlikeFor

/-! ### Generating in order -/

/-- Two stocks of modules that differ at most in composite tasks outside `made`. -/
structure Parts.Agree (p : Program) (made : List Task) (a b : Parts) : Prop where
  skeleton : ∀ n, a.skeleton? n = b.skeleton? n
  module : ∀ n t, p.task? n = some t → (t.isComposite = true → t ∈ made) → a.module? n = b.module? n

namespace Parts.Agree

variable {o : Options} {p : Program} {made : List Task} {a b : Parts} {t : Task}

theorem alikeFor (h : Agree p made a b)
    (hbelow : ∀ n ∈ t.childNames,
      ∃ child, p.task? n = some child ∧ (child.isComposite = true → child ∈ made)) :
    AlikeFor t a b where
  skeleton := h.skeleton t.name
  module := by
    intro n hn
    obtain ⟨child, hchild, hmade⟩ := hbelow n hn
    exact h.module n child hchild hmade

theorem attach (h : Agree p made a b) (m : Module) :
    Agree p (made ++ [t]) (a.attach t.name m) (b.attach t.name m) where
  skeleton := h.skeleton
  module := by
    intro n u hu hmade
    rw [module?_attach, module?_attach]
    split
    · rfl
    · rename_i hn
      refine h.module n u hu fun hc => ?_
      rcases List.mem_append.1 (hmade hc) with hmem | hmem
      · exact hmem
      · rw [List.mem_singleton.1 hmem] at hu
        exact absurd (Program.name_of_task? hu).symm hn

/-- Generation from two stocks that agree: the same log and the same modules or failure. -/
theorem generateTasks_eq {ts : List Task} (h : Agree p made a b)
    (hfirst : p.ChildrenFirst (made ++ ts)) :
    (generateTasks o p a ts).log = (generateTasks o p b ts).log ∧
      (generateTasks o p a ts).result = (generateTasks o p b ts).result := by
  induction ts generalizing made a b with
  | nil => exact ⟨rfl, rfl⟩
  | cons t ts ih =>
    have hstep : generateTask o p a t = generateTask o p b t :=
      (h.alikeFor (hfirst.below made t ts rfl)).generateTask_eq
    unfold generateTasks
    rw [hstep]
    rcases hg : generateTask o p b t with ⟨log, _ | m⟩
    · exact ⟨rfl, rfl⟩
    · have hrest := ih (h.attach (t := t) m) (by simpa using hfirst)
      exact ⟨by simp only [hrest.1], by simp only [hrest.2]⟩

end Parts.Agree

section
variable {o : Options} {p : Program} {parts : Parts} {ts : List Task}

/-- A successful generation attaches one module to each task. -/
theorem generateTasks_parts {ms : List Module}
    (h : (generateTasks o p parts ts).result = .ok ms) :
    ms.length = ts.length ∧
      (generateTasks o p parts ts).parts = parts.attachAll ((ts.map Task.name).zip ms) := by
  induction ts generalizing parts ms with
  | nil =>
    cases h
    exact ⟨rfl, rfl⟩
  | cons t ts ih =>
    unfold generateTasks at h ⊢
    rcases hg : generateTask o p parts t with ⟨log, _ | m⟩
    · simp only [hg] at h
      cases h
    · simp only [hg] at h ⊢
      cases hr : (generateTasks o p (parts.attach t.name m) ts).result with
      | error e =>
        rw [hr] at h
        cases h
      | ok ms' =>
        rw [hr] at h
        cases h
        obtain ⟨hlen, hparts⟩ := ih hr
        exact ⟨by simp [hlen], by rw [hparts]; rfl⟩

/-- Nothing but the modules of the generated tasks changes, not even if generation fails. -/
theorem generateTasks_frame (parts : Parts) (ts : List Task) :
    (generateTasks o p parts ts).parts.skeletons = parts.skeletons ∧
      ∀ n, n ∉ ts.map Task.name →
        (generateTasks o p parts ts).parts.module? n = parts.module? n := by
  induction ts generalizing parts with
  | nil => exact ⟨rfl, fun _ _ => rfl⟩
  | cons t ts ih =>
    unfold generateTasks
    rcases hg : generateTask o p parts t with ⟨log, _ | m⟩
    · exact ⟨rfl, fun _ _ => rfl⟩
    · obtain ⟨hskel, hmod⟩ := ih (parts.attach t.name m)
      refine ⟨hskel, fun n hn => ?_⟩
      rw [List.map_cons, List.mem_cons, not_or] at hn
      exact (hmod n hn.2).trans (by rw [Parts.module?_attach, if_neg hn.1])

end

section
variable {o : Options} {p : Program}

/-- Stocks of modules with the same skeletons and the same modules of leaf tasks give the same
log and the same design or failure. -/
theorem generate_congr {a b : Parts} (h : Parts.Agree p [] a b) :
    (generate o p a).log = (generate o p b).log ∧
      (generate o p a).result = (generate o p b).result := by
  unfold generate
  cases horder : p.compositeOrder with
  | error e => exact ⟨rfl, rfl⟩
  | ok order =>
    obtain ⟨hlog, hresult⟩ := h.generateTasks_eq (o := o)
      (Program.compositeOrder_childrenFirst horder)
    exact ⟨hlog, by simp only [hresult]⟩

/-- A generation leaves the skeletons alone, and every module that belongs to no composite task. -/
theorem generate_frame (parts : Parts) :
    (generate o p parts).parts.skeletons = parts.skeletons ∧
      ∀ n, (∀ t, p.task? n = some t → t.isComposite = false) →
        (generate o p parts).parts.module? n = parts.module? n := by
  unfold generate
  cases horder : p.compositeOrder with
  | error e => exact ⟨rfl, fun _ _ => rfl⟩
  | ok order =>
    have hfirst := Program.compositeOrder_childrenFirst horder
    obtain ⟨hskel, hmod⟩ := generateTasks_frame (o := o) (p := p) parts order
    refine ⟨hskel, fun n hn => hmod n fun hmem => ?_⟩
    obtain ⟨t, ht, rfl⟩ := List.mem_map.1 hmem
    have hleaf := hn t (hfirst.known t ht)
    simp [hfirst.composite t ht] at hleaf

theorem generate_again {parts : Parts} {d : Design} (h : (generate o p parts).result = .ok d) :
    generate o p (generate o p parts).parts = generate o p parts := by
  obtain ⟨hskel, hmod⟩ := generate_frame (o := o) (p := p) parts
  have hagree : Parts.Agree p [] (generate o p parts).parts parts := by
    refine ⟨fun n => by rw [Parts.skeleton?, hskel]; rfl, fun n t ht hmade => hmod n ?_⟩
    intro u hu
    rw [ht] at hu
    cases hu
    exact Bool.eq_false_iff.2 fun hc => by simpa using hmade hc
  obtain ⟨hlog, hresult⟩ := generate_congr (o := o) hagree
  have hparts : (generate o p (generate o p parts).parts).parts = (generate o p parts).parts := by
    cases horder : p.compositeOrder with
    | error e => simp [generate, horder] at h
    | ok order =>
      have hnd := (Program.compositeOrder_childrenFirst horder).distinct
      have hrun (q : Parts) : (generate o p q).parts = (generateTasks o p q order).parts ∧
          (generate o p q).result =
            (generateTasks o p q order).result.map (designOf p.top order) := by
        simp [generate, horder]
      cases hr : (generateTasks o p parts order).result with
      | error e =>
        rw [(hrun parts).2, hr] at h
        cases h
      | ok ms =>
        obtain ⟨hlen, hfst⟩ := generateTasks_parts hr
        have hnames : (((order.map Task.name).zip ms).map Prod.fst).Nodup := by
          rw [List.map_fst_zip (by simp [hlen])]
          exact hnd
        have hr' : (generateTasks o p (generate o p parts).parts order).result = .ok ms := by
          rw [(hagree.generateTasks_eq (o := o)
            (Program.compositeOrder_childrenFirst horder)).2, hr]
        rw [(hrun _).1, (generateTasks_parts hr').2, (hrun parts).1, hfst,
          Parts.attachAll_again _ hnames]
  cases h₁ : generate o p (generate o p parts).parts
  cases h₂ : generate o p parts
  simp_all

/-- Generation reads no module of a composite task that it has not made itself: stocks of modules
that differ in composite tasks only lead to the same design, or the same failure.  It changes
nothing but the modules of composite tasks, and after a success it can be repeated without any
effect. -/
theorem generate_repeatable {a b : Parts} (hskel : ∀ n, a.skeleton? n = b.skeleton? n)
    (hleaf : ∀ n t, p.task? n = some t → t.isComposite = false → a.module? n = b.module? n) :
    (generate o p a).result = (generate o p b).result ∧
    (∀ d, (generate o p a).result = .ok d →
      (generate o p (generate o p a).parts).result = .ok d ∧
      (generate o p (generate o p a).parts).parts = (generate o p a).parts) ∧
    (generate o p a).parts.skeletons = a.skeletons ∧
    ∀ n, (∀ t, p.task? n = some t → t.isComposite = false) →
      (generate o p a).parts.module? n = a.module? n := by
  have hagree : Parts.Agree p [] a b := by
    refine ⟨hskel, fun n t ht hmade => hleaf n t ht ?_⟩
    exact Bool.eq_false_iff.2 fun hc => by simpa using hmade hc
  refine ⟨(generate_congr hagree).2, fun d hd => ?_, generate_frame a⟩
  rw [generate_again hd]
  exact ⟨hd, rfl⟩

end

def nestedProgram : Program :=
  ⟨"Top", [{ name := "A", level := .leaf },
    { name := "Mid", level := .composite, childTable := [⟨"A", [⟨0, []⟩]⟩] },
    { name := "Top", level := .composite, childTable := [⟨"Mid", [⟨0, []⟩]⟩] }]⟩

def leafStock : Parts := { modules := [("A", { name := "A", ports := basePorts })] }

/-- The same stock with a module of an inner composite that is out of date. -/
def staleStock : Parts := leafStock.attach "Mid" { name := "Old" }

theorem generate_repeatable_stale :
    (generate {} nestedProgram staleStock).result = (generate {} nestedProgram leafStock).result ∧
    ∃ d, (generate {} nestedProgram staleStock).result = .ok d ∧
      (generate {} nestedProgram (generate {} nestedProgram staleStock).parts).result = .ok d ∧
      (generate {} nestedProgram (generate {} nestedProgram staleStock).parts).parts =
        (generate {} nestedProgram staleStock).parts := by
  have hleaf : ∀ n t, nestedProgram.task? n = some t → t.isComposite = false →
      staleStock.module? n = leafStock.module? n := by
    intro n t ht hc
    unfold staleStock
    rw [Parts.module?_attach, if_neg]
    rintro rfl
    cases ht
    cases hc
  obtain ⟨hsame, hagain, -⟩ := generate_repeatable (o := {}) (p := nestedProgram)
    (a := staleStock) (b := leafStock) (fun _ => rfl) hleaf
  have hok : (generate {} nestedProgram staleStock).result.isOk = true := by decide +kernel
  cases hd : (generate {} nestedProgram staleStock).result with
  | error e =>
    rw [hd] at hok
    cases hok
  | ok d =>
    obtain ⟨hd', hparts⟩ := hagain d hd
    exact ⟨hd ▸ hsame, d, rfl, hd', hparts⟩

end TaskLoom
