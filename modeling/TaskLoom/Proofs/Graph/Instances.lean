import TaskLoom.Proofs.Graph.Order

/-!
# Instances and the ends of streams

Where the instances of a task come from (`mem_instances`), and what it takes for an endpoint of a
stream to lead to one of them (`resolve_ok`).
-/

namespace TaskLoom

/-- The instance is the one that the endpoint names. -/
def Instance.IsAt (i : Instance) (e : Endpoint) : Prop := e = ⟨i.task.name, i.index⟩

/-- The instance has an argument of the given name in one of some categories. -/
def Instance.Binds (i : Instance) (name : String) (c : Category) : Prop :=
  ∃ a ∈ i.args, a.name = name ∧ a.category = c

/-- The order of instances: by task, and then by number. -/
def Instance.Before (i j : Instance) : Prop :=
  i.task.name < j.task.name ∨ i.task.name = j.task.name ∧ i.index < j.index

namespace Program

variable {p : Program} {t : Task} {placed : List Instance}

theorem mem_instancesOf {vs : List Invocation} {i : Instance} :
    i ∈ instancesOf t vs ↔
      i.task = t ∧ ∃ v, vs[i.index]? = some v ∧ v.step = i.step ∧
        Text.sortedBy Arg.name v.args = i.args := by
  unfold instancesOf
  rw [List.mem_mapIdx]
  constructor
  · rintro ⟨k, hk, rfl⟩
    exact ⟨rfl, vs[k], by simp [hk], rfl, rfl⟩
  · rintro ⟨rfl, v, hv, hstep, hargs⟩
    obtain ⟨hk, rfl⟩ := List.getElem?_eq_some_iff.1 hv
    exact ⟨i.index, hk, by rw [hstep, hargs]⟩

theorem mem_placedChildren {parent : String} {cs : List Child}
    (h : p.placedChildren parent cs = .ok placed) {i : Instance} :
    i ∈ placed ↔
      ∃ c ∈ cs, p.task? c.task = some i.task ∧ i ∈ instancesOf i.task c.invocations := by
  induction cs generalizing placed with
  | nil =>
    cases h
    simp
  | cons c cs ih =>
    rw [placedChildren] at h
    cases hc : p.task? c.task with
    | none => simp [hc] at h
    | some u =>
      simp only [hc] at h
      cases hr : p.placedChildren parent cs with
      | error e => simp [hr, bind, Except.bind] at h
      | ok rest =>
        simp only [hr, bind, Except.bind, pure, Except.pure, Except.ok.injEq] at h
        subst h
        have hhead : i ∈ instancesOf u c.invocations ↔
            some u = some i.task ∧ i ∈ instancesOf i.task c.invocations := by
          constructor
          · intro hi
            have hu : i.task = u := (mem_instancesOf.1 hi).1
            exact ⟨by rw [hu], hu ▸ hi⟩
          · rintro ⟨hu, hi⟩
            exact Option.some.inj hu ▸ hi
        rw [List.mem_append, ih hr, hhead, ← hc]
        simp [List.mem_cons]

theorem placedChildren_ok (parent : String) {cs : List Child}
    (h : ∀ c ∈ cs, (p.task? c.task).isSome = true) :
    ∃ placed, p.placedChildren parent cs = .ok placed := by
  induction cs with
  | nil => exact ⟨[], rfl⟩
  | cons c cs ih =>
    obtain ⟨u, hu⟩ := Option.isSome_iff_exists.1 (h c List.mem_cons_self)
    obtain ⟨rest, hr⟩ := ih fun c' hc' => h c' (List.mem_cons_of_mem _ hc')
    exact ⟨instancesOf u c.invocations ++ rest, by
      simp [placedChildren, hu, hr, bind, Except.bind, pure, Except.pure]⟩

/-- The instances of a task are the placements of its children. -/
theorem mem_instances (h : p.instances t = .ok placed) {i : Instance} :
    i ∈ placed ↔
      ∃ c ∈ t.childTable, p.task? c.task = some i.task ∧ i ∈ instancesOf i.task c.invocations := by
  rw [mem_placedChildren h]
  simp only [Task.mem_children]

theorem name_mem_childNames (h : p.instances t = .ok placed) {i : Instance} (hi : i ∈ placed) :
    i.task.name ∈ t.childNames := by
  obtain ⟨c, hc, ht, -⟩ := (mem_instances h).1 hi
  rw [name_of_task? ht]
  exact Task.mem_childNames.2 ⟨c, hc, rfl⟩

theorem pairwise_instancesOf (u : Task) (vs : List Invocation) :
    (instancesOf u vs).Pairwise Instance.Before := by
  rw [instancesOf, List.pairwise_iff_getElem]
  intro i j hi hj hij
  simp only [List.getElem_mapIdx]
  exact .inr ⟨rfl, hij⟩

theorem pairwise_placedChildren {parent : String} {cs : List Child}
    (hcs : Ascending (cs.map Child.task)) (h : p.placedChildren parent cs = .ok placed) :
    placed.Pairwise Instance.Before := by
  induction cs generalizing placed with
  | nil =>
    cases h
    exact .nil
  | cons c cs ih =>
    rw [placedChildren] at h
    cases hc : p.task? c.task with
    | none => simp [hc] at h
    | some u =>
      simp only [hc] at h
      cases hr : p.placedChildren parent cs with
      | error e => simp [hr, bind, Except.bind] at h
      | ok rest =>
        simp only [hr, bind, Except.bind, pure, Except.pure, Except.ok.injEq] at h
        subst h
        obtain ⟨hlt, hcs⟩ := List.pairwise_cons.1 hcs
        refine List.pairwise_append.2 ⟨pairwise_instancesOf u _, ih hcs hr, fun i hi j hj => ?_⟩
        obtain ⟨d, hd, hjd, -⟩ := (mem_placedChildren hr).1 hj
        have hname := hlt d.task (List.mem_map_of_mem hd)
        rw [← name_of_task? hc, ← name_of_task? hjd] at hname
        exact .inl ((mem_instancesOf.1 hi).1 ▸ hname)

/-- The instances of a task stand in order. -/
theorem pairwise_instances (hnd : (t.childTable.map Child.task).Nodup)
    (h : p.instances t = .ok placed) : placed.Pairwise Instance.Before :=
  pairwise_placedChildren (Text.ascending_sortedBy hnd) h

/-- The arguments of an instance stand in the order of their names. -/
theorem ascending_args
    (hnd : ∀ c ∈ t.childTable, ∀ v ∈ c.invocations, (v.args.map Arg.name).Nodup)
    (h : p.instances t = .ok placed) {i : Instance} (hi : i ∈ placed) :
    Ascending (i.args.map Arg.name) := by
  obtain ⟨c, hc, -, hi⟩ := (mem_instances h).1 hi
  obtain ⟨-, v, hv, -, hargs⟩ := mem_instancesOf.1 hi
  exact hargs ▸ Text.ascending_sortedBy (hnd c hc v (List.mem_of_getElem? hv))

/-- An endpoint that leads somewhere names an instance with a stream argument of the stream's
name. -/
theorem resolve_ok {fifo : String} {e : Endpoint} {i : Instance} {port : String}
    (h : p.resolve t fifo (some e) = .ok (i, port)) :
    ∃ placed, p.instances t = .ok placed ∧ i ∈ placed ∧ i.IsAt e ∧
      ∃ a, i.arg? fifo = some a ∧ a.category.isStream = true ∧ a.port = port := by
  unfold resolve at h
  simp only [bind, Except.bind, throw, throwThe, MonadExceptOf.throw, pure, Except.pure] at h
  split at h
  · cases h
  · cases hp : p.instances t with
    | error err => simp [hp] at h
    | ok placed =>
      simp only [hp] at h
      split at h
      · cases h
      · rename_i j hj
        have hat := List.find?_some hj
        simp only [Bool.and_eq_true, beq_iff_eq] at hat
        split at h
        · rename_i a ha
          split at h
          · rename_i hs
            cases h
            refine ⟨placed, rfl, List.mem_of_find?_eq_some hj, ?_, a, ha, hs, rfl⟩
            rw [Instance.IsAt, hat.1, hat.2]
          · cases h
        · cases h

end Program

end TaskLoom
