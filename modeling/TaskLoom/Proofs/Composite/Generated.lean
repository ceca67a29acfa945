import TaskLoom.Proofs.Composite.Layout
import TaskLoom.Proofs.Composite.Regeneration
import TaskLoom.Proofs.Hdl.Scope

/-!
# Where generated modules come from

A task is generated after its composite children, and nothing else touches their modules, so the
modules that its plan saw are the ones that are at hand in the end.  `Plan.Made p final m`: the plan
`p` has built `m`, with the modules of its children as they are in `final`.

Main statement: a design consists of the modules of such plans, one for each task of the order
(`made_of_generate`).
-/

namespace TaskLoom

/-- A plan whose children have the modules that are at hand in the end, and the module that it has
built. -/
structure Plan.Made (p : Plan) (final : Parts) (m : Module) : Prop where
  placed : p.program.instances p.task = .ok (p.children.map Placement.inst)
  skeletons : p.parts.skeletons = final.skeletons
  children : ∀ c ∈ p.children, final.module? c.inst.task.name = some c.module
  built : ∃ d, p.build { module := .new p.task.name } = .ok () d ∧ d.module = m
  kept : final.module? p.task.name = some m

theorem Plan.Made.name {p : Plan} {final : Parts} {m : Module} (h : p.Made final m) :
    m.name = p.task.name := by
  obtain ⟨d, hd, rfl⟩ := h.built
  obtain ⟨items, hitems, -⟩ := p.layout_build _ _ _ hd
  exact Module.name_of_addAll hitems

theorem module?_placements {parts : Parts} {task : String} {insts : List Instance}
    {cs : List Placement} (h : placements parts task insts = .ok cs) :
    ∀ c ∈ cs, parts.module? c.inst.task.name = some c.module := by
  induction insts generalizing cs with
  | nil =>
    cases h
    simp
  | cons i insts ih =>
    unfold placements at h
    split at h
    · cases h
    · rename_i m hm
      cases hr : placements parts task insts with
      | error e => simp [hr, bind, Except.bind] at h
      | ok cs' =>
        simp only [hr, bind, Except.bind, pure, Except.pure] at h
        cases h
        intro c hc
        rcases List.mem_cons.1 hc with rfl | hc
        · exact hm
        · exact ih hr c hc

section
variable {o : Options} {program : Program} {parts : Parts} {t : Task} {m : Module}

/-- A generated module was built by a plan, with the modules at hand at that time. -/
theorem generateTask_ok (h : (generateTask o program parts t).2 = .ok m) :
    ∃ cs, program.instances t = .ok (cs.map Placement.inst) ∧
      (∀ c ∈ cs, parts.module? c.inst.task.name = some c.module) ∧
      ∃ d, Plan.build ⟨o, program, parts, t, cs⟩ { module := .new t.name } = .ok () d ∧
        d.module = m := by
  unfold generateTask at h
  split at h
  · cases h
  · rename_i p hp
    split at h
    · rename_i d hd
      cases h
      obtain ⟨insts, cs, hinsts, hcs, rfl⟩ := plan_ok hp
      exact ⟨cs, inst_placements hcs ▸ hinsts, module?_placements hcs, d, hd, rfl⟩
    · cases h

/-- What is generated in order, children first: one module after the other, each by a plan that saw
the modules that are at hand in the end. -/
theorem made_of_generateTasks {before ts : List Task} {ms : List Module}
    (hfirst : program.ChildrenFirst (before ++ ts))
    (h : (generateTasks o program parts ts).result = .ok ms) :
    List.Forall₂ (fun t m => ∃ p : Plan, p.options = o ∧ p.program = program ∧ p.task = t ∧
      p.Made (generateTasks o program parts ts).parts m) ts ms := by
  induction ts generalizing before parts ms with
  | nil =>
    cases h
    exact .nil
  | cons t ts ih =>
    have hnd : ((before ++ t :: ts).map Task.name).Nodup := hfirst.distinct
    have hlater : t.name ∉ ts.map Task.name := by
      rw [List.map_append, List.nodup_append] at hnd
      exact (List.nodup_cons.1 hnd.2.1).1
    unfold generateTasks at h ⊢
    rcases hg : generateTask o program parts t with ⟨log, e | m⟩
    · rw [hg] at h
      cases h
    · simp only [hg] at h ⊢
      cases hr : (generateTasks o program (parts.attach t.name m) ts).result with
      | error e =>
        rw [hr] at h
        cases h
      | ok ms' =>
        rw [hr] at h
        cases h
        have hfirst' : program.ChildrenFirst ((before ++ [t]) ++ ts) := by simpa using hfirst
        have hrest := ih hfirst' hr
        refine .cons ?_ hrest
        obtain ⟨hskel, hframe⟩ := generateTasks_frame (o := o) (p := program)
          (parts.attach t.name m) ts
        obtain ⟨cs, hplaced, hmodules, hbuilt⟩ := generateTask_ok (congrArg Prod.snd hg)
        refine ⟨⟨o, program, parts, t, cs⟩, rfl, rfl, rfl, hplaced, hskel.symm, fun c hc => ?_,
          hbuilt, ?_⟩
        · -- the child is a leaf or was made before: no later task has its name
          have hname := Program.name_mem_childNames hplaced (List.mem_map_of_mem hc)
          obtain ⟨child, hchild, hmade⟩ := hfirst.below before t ts rfl _ hname
          have hout : c.inst.task.name ∉ (t :: ts).map Task.name := by
            intro hin
            obtain ⟨u, hu, hun⟩ := List.mem_map.1 hin
            have hmem : u ∈ before ++ t :: ts := List.mem_append_right _ hu
            have hknown := hfirst.known u hmem
            rw [hun, hchild, Option.some.injEq] at hknown
            have hearlier := hmade (hknown ▸ hfirst.composite u hmem)
            rw [List.map_append, List.nodup_append] at hnd
            exact hnd.2.2 _ (List.mem_map_of_mem hearlier) _ (List.mem_map_of_mem hu)
              (congrArg Task.name hknown)
          rw [List.map_cons, List.mem_cons, not_or] at hout
          rw [hframe _ hout.2, Parts.module?_attach, if_neg hout.1]
          exact hmodules c hc
        · rw [hframe _ hlater, Parts.module?_attach, if_pos rfl]

/-- Every task of the order has a module in the design, and every module of the design is that of a
task of the order. -/
theorem made_of_generate {design : Design} (h : (generate o program parts).result = .ok design) :
    ∃ order, program.compositeOrder = .ok order ∧
      (∀ t ∈ order, ∃ m ∈ design.modules, ∃ p : Plan, p.options = o ∧ p.program = program ∧
        p.task = t ∧ p.Made (generate o program parts).parts m) ∧
      ∀ m ∈ design.modules, ∃ p : Plan, p.options = o ∧ p.program = program ∧ p.task ∈ order ∧
        p.Made (generate o program parts).parts m := by
  unfold generate at h ⊢
  cases horder : program.compositeOrder with
  | error e =>
    rw [horder] at h
    cases h
  | ok order =>
    simp only [horder] at h ⊢
    cases hms : (generateTasks o program parts order).result with
    | error e =>
      rw [hms] at h
      cases h
    | ok ms =>
      rw [hms] at h
      cases h
      have hfirst : program.ChildrenFirst ([] ++ order) :=
        Program.compositeOrder_childrenFirst horder
      have hall := made_of_generateTasks hfirst hms
      refine ⟨order, rfl, fun t ht => ?_, fun m hm => ?_⟩
      · obtain ⟨i, hi, rfl⟩ := List.getElem_of_mem ht
        have hi' : i < ms.length := hall.length_eq ▸ hi
        exact ⟨ms[i], List.getElem_mem hi', hall.get hi hi'⟩
      · obtain ⟨i, hi, rfl⟩ := List.getElem_of_mem hm
        have hi' : i < order.length := hall.length_eq ▸ hi
        obtain ⟨p, ho, hp, ht, hmade⟩ := hall.get hi' hi
        exact ⟨p, ho, hp, ht ▸ List.getElem_mem hi', hmade⟩

end

end TaskLoom
