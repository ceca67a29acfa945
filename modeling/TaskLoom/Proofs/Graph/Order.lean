import TaskLoom.Graph.Order
import TaskLoom.Proofs.Text.Sorting
import Mathlib.Data.List.Nodup
import Mathlib.Data.List.Perm.Subperm

/-!
# The order of composition puts children first

`Program.ChildrenFirst p order`: the tasks of `order` are different composite tasks of `p`, and each
of them comes after all composite tasks that it places.  Main statement: whatever
`Program.compositeOrder` gives is such an order (`compositeOrder_childrenFirst`).

The walk behind it keeps `Visit.Sound p path`: the order so far is one with children first, it holds
exactly the composite tasks among the finished ones, and no task on the path from the top is
finished.  The bound on the depth is never met, because the tasks on a path are different.
-/

namespace TaskLoom

namespace Task

variable {t : Task}

@[simp] theorem mem_children {c : Child} : c ∈ t.children ↔ c ∈ t.childTable :=
  Text.mem_sortedBy

theorem mem_childNames {name : String} : name ∈ t.childNames ↔ ∃ c ∈ t.childTable, c.task = name := by
  simp [childNames]

@[simp] theorem mem_fifos {f : Fifo} : f ∈ t.fifos ↔ f ∈ t.fifoTable := Text.mem_sortedBy

end Task

namespace Program

variable {p : Program}

@[simp] theorem mem_tasks {t : Task} : t ∈ p.tasks ↔ t ∈ p.taskTable := Text.mem_sortedBy

theorem mem_taskNames {name : String} : name ∈ p.taskNames ↔ ∃ t ∈ p.taskTable, t.name = name := by
  simp [taskNames]

theorem name_of_task? {name : String} {t : Task} (h : p.task? name = some t) : t.name = name := by
  simpa using List.find?_some h

theorem mem_of_task? {name : String} {t : Task} (h : p.task? name = some t) : t ∈ p.taskTable :=
  List.mem_of_find?_eq_some h

theorem task?_name {name : String} {t : Task} (h : p.task? name = some t) :
    p.task? t.name = some t := by
  rw [name_of_task? h]
  exact h

/-- Different composite tasks of a program, each after all composite tasks that it places. -/
structure ChildrenFirst (p : Program) (order : List Task) : Prop where
  known : ∀ t ∈ order, p.task? t.name = some t
  composite : ∀ t ∈ order, t.isComposite = true
  distinct : (order.map Task.name).Nodup
  below : ∀ before t after, order = before ++ t :: after → ∀ name ∈ t.childNames,
    ∃ child, p.task? name = some child ∧ (child.isComposite = true → child ∈ before)

namespace ChildrenFirst

theorem nil : p.ChildrenFirst [] where
  known := by simp
  composite := by simp
  distinct := by simp
  below := by simp

theorem snoc {order : List Task} {t : Task} (h : p.ChildrenFirst order)
    (hknown : p.task? t.name = some t) (hcomp : t.isComposite = true)
    (hnew : t.name ∉ order.map Task.name)
    (hbelow : ∀ name ∈ t.childNames,
      ∃ child, p.task? name = some child ∧ (child.isComposite = true → child ∈ order)) :
    p.ChildrenFirst (order ++ [t]) where
  known := by
    intro u hu
    rcases List.mem_append.1 hu with hu | hu
    · exact h.known u hu
    · rw [List.mem_singleton.1 hu]
      exact hknown
  composite := by
    intro u hu
    rcases List.mem_append.1 hu with hu | hu
    · exact h.composite u hu
    · rw [List.mem_singleton.1 hu]
      exact hcomp
  distinct := by
    rw [List.map_append, List.map_singleton]
    exact List.nodup_append.2 ⟨h.distinct, List.nodup_singleton _, by
      rintro n hn _ hm rfl
      exact hnew (List.mem_singleton.1 hm ▸ hn)⟩
  below := by
    intro before u after he
    rcases List.eq_nil_or_concat after with rfl | ⟨after, w, rfl⟩
    · obtain ⟨rfl, hu⟩ := List.append_inj' he rfl
      cases hu
      exact hbelow
    · rw [List.concat_eq_append, ← List.cons_append, ← List.append_assoc] at he
      exact h.below before u after (List.append_inj' he rfl).1

theorem left {before after : List Task} (h : p.ChildrenFirst (before ++ after)) :
    p.ChildrenFirst before where
  known t ht := h.known t (List.mem_append_left _ ht)
  composite t ht := h.composite t (List.mem_append_left _ ht)
  distinct := by
    have hnd := h.distinct
    rw [List.map_append] at hnd
    exact hnd.of_append_left
  below := by
    intro first t rest hsplit
    exact h.below first t (rest ++ after) (by simp [hsplit])

end ChildrenFirst

end Program

open Program

/-- How a walk stands that has come down `path` from the top. -/
structure Visit.Sound (p : Program) (path : List String) (v : Visit) : Prop where
  order : p.ChildrenFirst v.order
  finished : ∀ t ∈ v.order, t.name ∈ v.finished
  ordered : ∀ n ∈ v.finished, ∃ t, p.task? n = some t ∧ (t.isComposite = true → t ∈ v.order)
  apart : ∀ n ∈ path, n ∉ v.finished

namespace Visit.Sound

variable {p : Program} {path : List String} {v : Visit} {t : Task}

theorem start : Visit.Sound p [] {} where
  order := .nil
  finished := by simp
  ordered := by simp
  apart := by simp

/-- A leaf is finished at once. -/
theorem leaf (h : Visit.Sound p path v) (ht : p.task? t.name = some t) (hpath : t.name ∉ path)
    (hleaf : t.isComposite = false) :
    Visit.Sound p path { v with finished := t.name :: v.finished } where
  order := h.order
  finished := fun u hu => List.mem_cons_of_mem _ (h.finished u hu)
  ordered := by
    intro n hn
    rcases List.mem_cons.1 hn with rfl | hn
    · exact ⟨t, ht, fun hc => absurd hc (by simp [hleaf])⟩
    · exact h.ordered n hn
  apart := by
    intro n hn hm
    rcases List.mem_cons.1 hm with rfl | hm
    · exact hpath hn
    · exact h.apart n hn hm

theorem descend (h : Visit.Sound p path v) (hnew : t.name ∉ v.finished) :
    Visit.Sound p (path ++ [t.name]) v where
  order := h.order
  finished := h.finished
  ordered := h.ordered
  apart := by
    intro n hn
    rcases List.mem_append.1 hn with hn | hn
    · exact h.apart n hn
    · rw [List.mem_singleton.1 hn]
      exact hnew

/-- A composite task is finished after all its children. -/
theorem ascend (h : Visit.Sound p (path ++ [t.name]) v) (ht : p.task? t.name = some t)
    (hpath : t.name ∉ path) (hcomp : t.isComposite = true)
    (hchildren : ∀ n ∈ t.childNames, n ∈ v.finished) :
    Visit.Sound p path ⟨t.name :: v.finished, v.order ++ [t]⟩ where
  order := by
    refine h.order.snoc ht hcomp ?_ fun n hn => h.ordered n (hchildren n hn)
    intro hmem
    obtain ⟨u, hu, he⟩ := List.mem_map.1 hmem
    exact h.apart t.name (by simp) (he ▸ h.finished u hu)
  finished := by
    intro u hu
    rcases List.mem_append.1 hu with hu | hu
    · exact List.mem_cons_of_mem _ (h.finished u hu)
    · rw [List.mem_singleton.1 hu]
      exact List.mem_cons_self
  ordered := by
    intro n hn
    rcases List.mem_cons.1 hn with rfl | hn
    · exact ⟨t, ht, fun _ => by simp⟩
    · obtain ⟨u, hu, hc⟩ := h.ordered n hn
      exact ⟨u, hu, fun hu' => List.mem_append_left _ (hc hu')⟩
  apart := by
    intro n hn hm
    rcases List.mem_cons.1 hm with rfl | hm
    · exact hpath hn
    · exact h.apart n (List.mem_append_left _ hn) hm

end Visit.Sound

namespace Program

variable {p : Program} {path : List String} {v v' : Visit}

/-- What a visit of one task does to a walk. -/
def Visits (p : Program) (path : List String) (t : Task) (v v' : Visit) : Prop :=
  Visit.Sound p path v' ∧ v.finished ⊆ v'.finished ∧ t.name ∈ v'.finished

theorem visitChildren_sound {visit : Task → Visit → Except GraphError Visit} {parent : String}
    (hvisit : ∀ t v v', p.task? t.name = some t → Visit.Sound p path v → visit t v = .ok v' →
      p.Visits path t v v')
    {names : List String} (hv : Visit.Sound p path v)
    (h : p.visitChildren visit parent names v = .ok v') :
    Visit.Sound p path v' ∧ v.finished ⊆ v'.finished ∧ ∀ n ∈ names, n ∈ v'.finished := by
  induction names generalizing v with
  | nil =>
    cases h
    exact ⟨hv, fun _ h => h, by simp⟩
  | cons name names ih =>
    rw [visitChildren] at h
    cases hc : p.task? name with
    | none => simp [hc] at h
    | some child =>
      simp only [hc] at h
      cases hw : visit child v with
      | error e => simp [hw, bind, Except.bind] at h
      | ok w =>
        simp only [hw, bind, Except.bind] at h
        obtain ⟨hs, hsub, hin⟩ := hvisit child v w (task?_name hc) hv hw
        obtain ⟨hs', hsub', hall⟩ := ih hs h
        refine ⟨hs', fun _ hn => hsub' (hsub hn), fun n hn => ?_⟩
        rcases List.mem_cons.1 hn with rfl | hn
        · exact hsub' (name_of_task? hc ▸ hin)
        · exact hall n hn

theorem length_le_of_path (hnd : path.Nodup) (hknown : path ⊆ p.taskNames) :
    path.length ≤ p.taskTable.length := by
  have h := (List.subperm_of_subset hnd hknown).length_le
  simpa [taskNames, tasks] using h

theorem visit_sound {depth : Nat} {t : Task} (hnd : path.Nodup) (hknown : path ⊆ p.taskNames)
    (hroom : p.taskTable.length < path.length + depth) (ht : p.task? t.name = some t)
    (hv : Visit.Sound p path v) (h : p.visit depth path t v = .ok v') : p.Visits path t v v' := by
  induction depth generalizing path t v v' with
  | zero =>
    have := length_le_of_path hnd hknown
    omega
  | succ depth ih =>
    rw [visit] at h
    split at h
    · -- finished before
      rename_i hfin
      cases h
      exact ⟨hv, fun _ h => h, by simpa using hfin⟩
    rename_i hfin
    split at h
    · cases h
    rename_i hpath
    replace hfin : t.name ∉ v.finished := by simpa using hfin
    replace hpath : t.name ∉ path := by simpa using hpath
    split at h
    · rename_i hleaf
      cases h
      exact ⟨hv.leaf ht hpath (by simpa using hleaf), List.subset_cons_self _ _,
        List.mem_cons_self⟩
    · rename_i hcomp
      have hnd' : (path ++ [t.name]).Nodup := by
        rw [List.nodup_append]
        exact ⟨hnd, List.nodup_singleton _, by
          rintro n hn _ hm rfl
          exact hpath (List.mem_singleton.1 hm ▸ hn)⟩
      have hknown' : path ++ [t.name] ⊆ p.taskNames := by
        intro n hn
        rcases List.mem_append.1 hn with hn | hn
        · exact hknown hn
        · rw [List.mem_singleton.1 hn]
          exact mem_taskNames.2 ⟨t, mem_of_task? ht, rfl⟩
      have hroom' : p.taskTable.length < (path ++ [t.name]).length + depth := by
        simp only [List.length_append, List.length_singleton]
        omega
      cases hw : p.visitChildren (p.visit depth (path ++ [t.name])) t.name t.childNames v with
      | error e => simp [hw, bind, Except.bind] at h
      | ok w =>
        simp only [hw, bind, Except.bind] at h
        cases h
        obtain ⟨hs, hsub, hall⟩ := visitChildren_sound
          (fun u x x' hu hx hvis => ih hnd' hknown' hroom' hu hx hvis) (hv.descend hfin) hw
        exact ⟨hs.ascend ht hpath (by simpa using hcomp) hall,
          fun _ hn => List.mem_cons_of_mem _ (hsub hn), List.mem_cons_self⟩

theorem compositeOrder_childrenFirst {order : List Task} (h : p.compositeOrder = .ok order) :
    p.ChildrenFirst order := by
  unfold compositeOrder topTask at h
  cases ht : p.task? p.top with
  | none => simp [ht, bind, Except.bind] at h
  | some top =>
    simp only [ht, bind, Except.bind] at h
    cases hv : p.visit (p.taskTable.length + 1) [] top {} with
    | error e => simp [hv] at h
    | ok v =>
      simp only [hv] at h
      cases h
      exact (visit_sound List.nodup_nil (List.nil_subset _) (by simp) (task?_name ht)
        .start hv).1.order

end Program

end TaskLoom
