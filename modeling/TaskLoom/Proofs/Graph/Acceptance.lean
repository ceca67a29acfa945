import TaskLoom.Graph.Check
import TaskLoom.Proofs.Graph.Instances

/-!
# What an accepted program satisfies

`Program.check` collects issues.  This module reads off what their absence means, rule by rule:
`Task.Bound` for an argument, `Program.Joined` for a stream, `Program.Composed` for a composite task
with its instances, and `Program.Accepted` for a whole program (`accepted_of_check`).  A memory has
one user in a composite (`memoryUsers_of_check`).
-/

namespace TaskLoom

/-- An argument of an instance that passes the check of its category and its side of a stream. -/
structure Task.Bound (t : Task) (i : Instance) (a : Arg) : Prop where
  category : a.category.isValid = true
  writes : a.category = .ostream →
    ∃ f e, t.fifo? a.name = some f ∧ f.producer = some e ∧ i.IsAt e
  reads : a.category = .istream →
    ∃ f e, t.fifo? a.name = some f ∧ f.consumer = some e ∧ i.IsAt e

/-- A stream whose sides lead somewhere and are as many as its kind needs. -/
structure Program.Joined (p : Program) (t : Task) (f : Fifo) : Prop where
  depth : 0 ≤ f.depth
  resolves : ∀ e, f.producer = some e ∨ f.consumer = some e →
    ∃ r, p.resolve t f.name (some e) = .ok r
  external : f.isExternal = true → f.producer.isSome = !f.consumer.isSome
  internal : f.isExternal = false → f.producer.isSome = true ∧ f.consumer.isSome = true

/-- A composite task whose arguments and streams pass the check. -/
structure Program.Composed (p : Program) (t : Task) (placed : List Instance) : Prop where
  instances : p.instances t = .ok placed
  args : ∀ i ∈ placed, ∀ a ∈ i.args, t.Bound i a
  fifos : ∀ f ∈ t.fifoTable, p.Joined t f

structure Program.Accepted (p : Program) : Prop where
  composed : ∀ t ∈ p.taskTable, t.isComposite = true → ∃ placed, p.Composed t placed
  ordered : ∃ order, p.compositeOrder = .ok order

theorem Task.bound_of_argIssues {t : Task} {i : Instance} {a : Arg} (h : t.argIssues i a = []) :
    t.Bound i a := by
  unfold argIssues at h
  split at h
  · cases h
  rename_i hvalid
  split at h
  · cases h
  -- what the check of a stream argument says about the side that it names
  have hstream (hs : a.category.isStream = true) : ∃ f, t.fifo? a.name = some f ∧
      (if a.category == .ostream then f.producer else f.consumer) =
        some ⟨i.task.name, i.index⟩ := by
    rw [if_pos hs] at h
    unfold streamIssues at h
    cases hf : t.fifo? a.name with
    | none =>
      rw [hf] at h
      cases h
    | some f =>
      refine ⟨f, rfl, ?_⟩
      by_contra hside
      cases hc : a.category == .ostream <;> simp [hf, hc] at h hside <;> exact hside h
  refine ⟨by simpa using hvalid, fun hc => ?_, fun hc => ?_⟩
  · obtain ⟨f, hf, hside⟩ := hstream (by rw [hc]; rfl)
    rw [hc] at hside
    exact ⟨f, _, hf, hside, rfl⟩
  · obtain ⟨f, hf, hside⟩ := hstream (by rw [hc]; rfl)
    rw [hc] at hside
    exact ⟨f, _, hf, hside, rfl⟩

namespace Program

variable {p : Program} {t : Task}

theorem joined_of_fifoIssues {f : Fifo} (h : p.fifoIssues t f = []) : p.Joined t f := by
  unfold fifoIssues at h
  simp only [List.append_eq_nil_iff] at h
  obtain ⟨⟨hdepth, hsides⟩, hcount⟩ := h
  rw [List.flatMap_eq_nil_iff] at hsides
  refine ⟨?_, fun e he => ?_, fun hext => ?_, fun hint => ?_⟩
  · split at hdepth
    · cases hdepth
    · omega
  · have hmem : e ∈ [f.producer, f.consumer].filterMap id := by
      rcases he with he | he <;> simp [he]
    have hok := hsides e hmem
    cases hr : p.resolve t f.name (some e) with
    | ok r => exact ⟨r, rfl⟩
    | error err =>
      rw [hr] at hok
      cases hok
  · rw [if_pos hext] at hcount
    cases hp : f.producer <;> cases hc : f.consumer <;> simp [hp, hc] at hcount ⊢
  · rw [if_neg (by simp [hint])] at hcount
    cases hp : f.producer <;> cases hc : f.consumer <;> simp [hp, hc] at hcount ⊢

theorem composed_of_compositeIssues (h : p.compositeIssues t = []) :
    ∃ placed, p.Composed t placed := by
  unfold compositeIssues at h
  simp only at h
  cases hi : p.instances t with
  | error e =>
    -- then some child is undefined, which is an issue of its own
    rw [hi] at h
    have hknown : ∀ c ∈ t.children, (p.task? c.task).isSome = true := by
      intro c hc
      have hnone := List.flatMap_eq_nil_iff.1 h c.task (List.mem_map.2 ⟨c, hc, rfl⟩)
      by_contra hu
      rw [if_neg hu] at hnone
      cases hnone
    obtain ⟨placed, hok⟩ := placedChildren_ok t.name hknown
    rw [instances, hok] at hi
    cases hi
  | ok placed =>
    simp only [hi, List.append_eq_nil_iff] at h
    obtain ⟨⟨⟨-, hargs⟩, -⟩, hfifos⟩ := h
    rw [List.flatMap_eq_nil_iff] at hargs hfifos
    refine ⟨placed, hi, fun i hmem a ha => ?_, fun f hf =>
      joined_of_fifoIssues (hfifos f (Task.mem_fifos.2 hf))⟩
    exact Task.bound_of_argIssues (List.flatMap_eq_nil_iff.1 (hargs i hmem) a ha)

theorem issues_of_check (h : Program.check (some p) = .ok ()) :
    (∀ t ∈ p.taskTable, p.taskIssues t = []) ∧ ∃ order, p.compositeOrder = .ok order := by
  have hnil : p.issues = [] := by
    by_contra hne
    simp [check, hne] at h
  unfold issues at hnil
  cases htop : p.task? p.top with
  | none =>
    rw [htop] at hnil
    cases hnil
  | some top =>
    simp only [htop] at hnil
    by_cases hempty : (if top.isComposite then [] else [Issue.leafAtTop top.name]) ++
        p.tasks.flatMap p.taskIssues = []
    · refine ⟨fun t ht => List.flatMap_eq_nil_iff.1 (List.append_eq_nil_iff.1 hempty).2 t
        (mem_tasks.2 ht), ?_⟩
      cases horder : p.compositeOrder with
      | ok order => exact ⟨order, rfl⟩
      | error e =>
        rw [hempty, horder] at hnil
        cases hnil
    · rw [if_pos (by simpa using hempty)] at hnil
      exact absurd hnil hempty

theorem compositeIssues_of_check (h : Program.check (some p) = .ok ()) (ht : t ∈ p.taskTable)
    (hc : t.isComposite = true) : p.compositeIssues t = [] := by
  have htask := (issues_of_check h).1 t ht
  rwa [taskIssues, if_pos hc] at htask

theorem argIssues_of_check (h : Program.check (some p) = .ok ()) (ht : t ∈ p.taskTable)
    (hc : t.isComposite = true) {placed : List Instance} (hplaced : p.instances t = .ok placed) :
    ∀ i ∈ placed, ∀ a ∈ i.args, t.argIssues i a = [] := by
  have hnil := compositeIssues_of_check h ht hc
  unfold compositeIssues at hnil
  simp only [hplaced, List.append_eq_nil_iff] at hnil
  obtain ⟨⟨⟨-, hargs⟩, -⟩, -⟩ := hnil
  exact fun i hi a ha => List.flatMap_eq_nil_iff.1 (List.flatMap_eq_nil_iff.1 hargs i hi) a ha

theorem accepted_of_check (h : Program.check (some p) = .ok ()) : p.Accepted :=
  ⟨fun _ ht hc => composed_of_compositeIssues (compositeIssues_of_check h ht hc),
    (issues_of_check h).2⟩

theorem port_of_argIssues {i : Instance} {a : Arg} (h : t.argIssues i a = []) : a.port ≠ "" := by
  intro hport
  unfold Task.argIssues at h
  split at h
  · cases h
  · simp [hport] at h

theorem memoryUsers_of_sharedMemoryIssues {task : String} {placed : List Instance}
    (h : sharedMemoryIssues task placed = []) (x : String) : (memoryUsers placed x).length ≤ 1 := by
  by_contra hmany
  have hname : x ∈ memoryNames placed := by
    have hsome : 0 < (memoryUsers placed x).length := by omega
    obtain ⟨user, huser⟩ := List.exists_mem_of_length_pos hsome
    obtain ⟨i, hi, huser⟩ := List.mem_flatMap.1 huser
    obtain ⟨a, ha, -⟩ := List.mem_map.1 huser
    simp only [List.mem_filter, Bool.and_eq_true, beq_iff_eq] at ha
    obtain ⟨ha, ⟨rfl, hmmap⟩, hport⟩ := ha
    refine List.mem_eraseDups.2 (Text.mem_sortedBy.2 ?_)
    refine List.mem_flatMap.2 ⟨i, hi, List.mem_map.2 ⟨a, List.mem_filter.2 ⟨ha, ?_⟩, rfl⟩⟩
    rw [hmmap, hport]
    rfl
  have hnone := List.flatMap_eq_nil_iff.1 h x hname
  simp [show 1 < (memoryUsers placed x).length by omega] at hnone

/-- In an accepted program no memory of a composite is used twice. -/
theorem memoryUsers_of_check (h : Program.check (some p) = .ok ()) (ht : t ∈ p.taskTable)
    (hc : t.isComposite = true) {placed : List Instance} (hplaced : p.instances t = .ok placed) :
    (∀ i ∈ placed, ∀ a ∈ i.args, a.port ≠ "") ∧ ∀ x, (memoryUsers placed x).length ≤ 1 := by
  have hnil := compositeIssues_of_check h ht hc
  unfold compositeIssues at hnil
  simp only [hplaced, List.append_eq_nil_iff] at hnil
  obtain ⟨⟨-, hshared⟩, -⟩ := hnil
  exact ⟨fun i hi a ha => port_of_argIssues (argIssues_of_check h ht hc hplaced i hi a ha),
    memoryUsers_of_sharedMemoryIssues hshared⟩

end Program

end TaskLoom
