import TaskLoom.Proofs.Graph.Order
import Mathlib.Logic.Relation

/-!
# What the order of composition covers

`Program.Places p t u`: the composite task `t` has `u` as a child; the tasks below the top one are
those that it `Reaches`.  The walk down from the top either finishes, and then everything it has
collected was reached, or it stops at a fault of the program (`Program.Fault`): a missing task, or a
task that is met again on the way down to it (`Program.Trail`).

Main statement: the composites that are reached from the top are put into an order, children first,
exactly if there is no such fault, and otherwise the failure names one
(`compositeOrder_topological`).
-/

namespace TaskLoom

namespace Program

variable {p : Program}

/-- `u` is the task of a child of the composite `t`. -/
structure Places (p : Program) (t u : Task) : Prop where
  composite : t.isComposite = true
  child : u.name ∈ t.childNames
  known : p.task? u.name = some u

/-- `u` is `t` or lies below it. -/
def Reaches (p : Program) : Task → Task → Prop := Relation.ReflTransGen p.Places

/-- A way down from the top: the tasks above `t` on it, the top one first. -/
inductive Trail (p : Program) : List Task → Task → Prop where
  | start {top : Task} (h : p.task? p.top = some top) : Trail p [] top
  | step {above : List Task} {t u : Task} (h : Trail p above t) (hu : p.Places t u) :
      Trail p (above ++ [t]) u

/-- A failure to find an order that shows a fault of the program. -/
inductive Fault (p : Program) : GraphError → Prop where
  | top (h : p.task? p.top = none) : Fault p (.undefinedTop p.top)
  | child {above : List Task} {t : Task} {name : String} (h : p.Trail above t)
      (hcomp : t.isComposite = true) (hname : name ∈ t.childNames) (hnone : p.task? name = none) :
      Fault p (.undefinedTask t.name name)
  | cycle {above : List Task} {t : Task} (h : p.Trail above t) (hagain : t ∈ above) :
      Fault p (.selfInstantiation t.name (above.map Task.name ++ [t.name]))

namespace Trail

variable {above : List Task} {t u : Task}

theorem reached (h : p.Trail above t) :
    ∃ top, p.task? p.top = some top ∧ p.Reaches top t := by
  induction h with
  | start h => exact ⟨_, h, .refl⟩
  | step h hu ih =>
    obtain ⟨top, htop, hreach⟩ := ih
    exact ⟨top, htop, hreach.tail hu⟩

theorem known (h : p.Trail above t) : p.task? t.name = some t := by
  cases h with
  | start h => exact task?_name h
  | step h hu => exact hu.known

theorem known_above (h : p.Trail above t) : ∀ u ∈ above, p.task? u.name = some u := by
  induction h with
  | start h => simp
  | step h hu ih =>
    intro w hw
    rcases List.mem_append.1 hw with hw | hw
    · exact ih w hw
    · rw [List.mem_singleton.1 hw]
      exact h.known

/-- A task above another one leads down to it. -/
theorem leads (h : p.Trail above t) : ∀ u ∈ above, Relation.TransGen p.Places u t := by
  induction h with
  | start h => simp
  | step h hu ih =>
    intro w hw
    rcases List.mem_append.1 hw with hw | hw
    · exact (ih w hw).tail hu
    · rw [List.mem_singleton.1 hw]
      exact .single hu

/-- A name that is met again belongs to the same task. -/
theorem mem_of_name (h : p.Trail above t) (hname : t.name ∈ above.map Task.name) : t ∈ above := by
  obtain ⟨u, hu, he⟩ := List.mem_map.1 hname
  have hsame := h.known_above u hu
  rw [he, h.known] at hsame
  exact Option.some.inj hsame ▸ hu

end Trail

/-! ### The walk -/

section
variable {parent : String} {names : List String} {v v' : Visit} {e : GraphError}
  {visit : Task → Visit → Except GraphError Visit}

/-- Children are visited until one is undefined or its own visit fails. -/
theorem visitChildren_error (h : p.visitChildren visit parent names v = .error e) :
    (∃ n ∈ names, p.task? n = none ∧ e = .undefinedTask parent n) ∨
      ∃ n ∈ names, ∃ child w, p.task? n = some child ∧ visit child w = .error e := by
  induction names generalizing v with
  | nil => cases h
  | cons name names ih =>
    rw [visitChildren] at h
    cases hc : p.task? name with
    | none =>
      rw [hc] at h
      cases h
      exact .inl ⟨name, List.mem_cons_self, hc, rfl⟩
    | some child =>
      simp only [hc] at h
      cases hw : visit child v with
      | error e' =>
        rw [hw] at h
        cases h
        exact .inr ⟨name, List.mem_cons_self, child, v, hc, hw⟩
      | ok w =>
        simp only [hw, bind, Except.bind] at h
        rcases ih h with ⟨n, hn, hrest⟩ | ⟨n, hn, hrest⟩
        · exact .inl ⟨n, List.mem_cons_of_mem _ hn, hrest⟩
        · exact .inr ⟨n, List.mem_cons_of_mem _ hn, hrest⟩

/-- A walk that starts at the end of a trail fails only for a fault of the program. -/
theorem visit_fault {depth : Nat} {above : List Task} {t : Task} (htrail : p.Trail above t)
    (h : p.visit depth (above.map Task.name) t v = .error e) : p.Fault e := by
  induction depth generalizing above t v with
  | zero => cases h
  | succ depth ih =>
    rw [visit] at h
    split at h
    · cases h
    split at h
    · -- met again on the way down
      rename_i hagain
      cases h
      exact .cycle htrail (htrail.mem_of_name (by simpa using hagain))
    split at h
    · cases h
    rename_i hcomp
    replace hcomp : t.isComposite = true := by simpa using hcomp
    have hbelow : above.map Task.name ++ [t.name] = (above ++ [t]).map Task.name := by simp
    cases hw : p.visitChildren (p.visit depth (above.map Task.name ++ [t.name])) t.name
        t.childNames v with
    | ok w => simp [hw, bind, Except.bind, pure, Except.pure] at h
    | error e' =>
      simp only [hw, bind, Except.bind, Except.error.injEq] at h
      subst h
      rcases visitChildren_error hw with ⟨n, hn, hnone, rfl⟩ | ⟨n, hn, child, x, hchild, hx⟩
      · exact .child htrail hcomp hn hnone
      · have hname := name_of_task? hchild
        exact ih (htrail.step ⟨hcomp, hname ▸ hn, task?_name hchild⟩) (hbelow ▸ hx)

/-- What visits of children have collected, if each visit collects tasks below its child. -/
theorem visitChildren_collects {t : Task} (hcomp : t.isComposite = true)
    (hvisit : ∀ child v v', p.task? child.name = some child → visit child v = .ok v' →
      ∃ new, v'.order = v.order ++ new ∧ ∀ u ∈ new, p.Reaches child u)
    (hnames : names ⊆ t.childNames) (h : p.visitChildren visit parent names v = .ok v') :
    ∃ new, v'.order = v.order ++ new ∧ ∀ u ∈ new, p.Reaches t u := by
  induction names generalizing v with
  | nil =>
    cases h
    exact ⟨[], by simp, by simp⟩
  | cons name names ih =>
    rw [visitChildren] at h
    cases hc : p.task? name with
    | none => simp [hc] at h
    | some child =>
      simp only [hc] at h
      cases hw : visit child v with
      | error e => simp [hw, bind, Except.bind] at h
      | ok w =>
        simp only [hw, bind, Except.bind] at h
        have hplaces : p.Places t child :=
          ⟨hcomp, (name_of_task? hc).symm ▸ hnames List.mem_cons_self, task?_name hc⟩
        obtain ⟨xs, hxs, hreach⟩ := hvisit child v w hplaces.known hw
        obtain ⟨ys, hys, hreach'⟩ := ih (fun n hn => hnames (List.mem_cons_of_mem _ hn)) h
        refine ⟨xs ++ ys, by rw [hys, hxs, List.append_assoc], fun u hu => ?_⟩
        rcases List.mem_append.1 hu with hu | hu
        · exact (hreach u hu).head hplaces
        · exact hreach' u hu

/-- A visit collects tasks that it has reached. -/
theorem visit_collects {depth : Nat} {path : List String} {t : Task}
    (h : p.visit depth path t v = .ok v') :
    ∃ new, v'.order = v.order ++ new ∧ ∀ u ∈ new, p.Reaches t u := by
  induction depth generalizing path t v v' with
  | zero =>
    cases h
    exact ⟨[], by simp, by simp⟩
  | succ depth ih =>
    rw [visit] at h
    split at h
    · cases h
      exact ⟨[], by simp, by simp⟩
    split at h
    · cases h
    split at h
    · cases h
      exact ⟨[], by simp, by simp⟩
    rename_i hcomp
    cases hw : p.visitChildren (p.visit depth (path ++ [t.name])) t.name t.childNames v with
    | error e => simp [hw, bind, Except.bind] at h
    | ok w =>
      simp only [hw, bind, Except.bind] at h
      cases h
      obtain ⟨new, hnew, hreach⟩ := visitChildren_collects (by simpa using hcomp)
        (fun _ _ _ _ hx => ih hx) (List.Subset.refl _) hw
      refine ⟨new ++ [t], by simp [hnew], fun u hu => ?_⟩
      rcases List.mem_append.1 hu with hu | hu
      · exact hreach u hu
      · rw [List.mem_singleton.1 hu]
        exact .refl

/-- A composite that was not finished before is the last one that its visit collects. -/
theorem visit_last {depth : Nat} {path : List String} {t : Task} (hcomp : t.isComposite = true)
    (hnew : t.name ∉ v.finished) (h : p.visit (depth + 1) path t v = .ok v') :
    v'.order.getLast? = some t := by
  rw [visit, if_neg (by simpa using hnew)] at h
  split at h
  · cases h
  rw [if_neg (by simp [hcomp])] at h
  cases hw : p.visitChildren (p.visit depth (path ++ [t.name])) t.name t.childNames v with
  | error e => simp [hw, bind, Except.bind] at h
  | ok w =>
    simp only [hw, bind, Except.bind] at h
    cases h
    simp

end

/-! ### Orders with children first -/

namespace ChildrenFirst

variable {order : List Task}

theorem nodup (h : p.ChildrenFirst order) : order.Nodup := h.distinct.of_map

/-- A composite below a task of the order stands before it. -/
theorem mem_before (h : p.ChildrenFirst order) {t u : Task} (htu : Relation.TransGen p.Places t u)
    (hcomp : u.isComposite = true) {before after : List Task}
    (hsplit : order = before ++ t :: after) : u ∈ before := by
  induction htu with
  | single hu =>
    obtain ⟨child, hchild, hmem⟩ := h.below before t after hsplit _ hu.child
    rw [hu.known] at hchild
    exact Option.some.inj hchild ▸ hmem (Option.some.inj hchild ▸ hcomp)
  | tail _ hu ih =>
    -- the composite in between stands before `t`, and its children before it
    obtain ⟨b, c, rfl⟩ := List.append_of_mem (ih hu.composite)
    obtain ⟨child, hchild, hmem⟩ := h.below b _ (c ++ t :: after) (by simp [hsplit]) _ hu.child
    rw [hu.known] at hchild
    refine List.mem_append_left _ ?_
    exact Option.some.inj hchild ▸ hmem (Option.some.inj hchild ▸ hcomp)

theorem not_cyclic (h : p.ChildrenFirst order) {t : Task} (ht : t ∈ order) :
    ¬ Relation.TransGen p.Places t t := by
  intro hcycle
  obtain ⟨before, after, hsplit⟩ := List.append_of_mem ht
  have hbefore := h.mem_before hcycle (h.composite t ht) hsplit
  have hnd := h.nodup
  rw [hsplit, List.nodup_append] at hnd
  exact hnd.2.2 t hbefore t List.mem_cons_self rfl

/-- An order that has the top task has all composites below it. -/
theorem mem_of_reaches (h : p.ChildrenFirst order) {top t : Task}
    (htop : top.isComposite = true → top ∈ order) (hreach : p.Reaches top t)
    (hcomp : t.isComposite = true) : t ∈ order := by
  induction hreach with
  | refl => exact htop hcomp
  | tail _ hu ih =>
    obtain ⟨before, after, hsplit⟩ := List.append_of_mem (ih hu.composite)
    rw [hsplit]
    exact List.mem_append_left _ (h.mem_before (.single hu) hcomp hsplit)

end ChildrenFirst

/-- What an order of composition is, seen from the task at the top. -/
structure TopologicalFrom (p : Program) (top : Task) (order : List Task) : Prop where
  childrenFirst : p.ChildrenFirst order
  mem_iff : ∀ t, t ∈ order ↔ t.isComposite = true ∧ p.Reaches top t
  last : top.isComposite = true → order.getLast? = some top

theorem topologicalFrom_of_ok {order : List Task} (h : p.compositeOrder = .ok order) :
    ∃ top, p.task? p.top = some top ∧ p.TopologicalFrom top order := by
  have hfirst := compositeOrder_childrenFirst h
  unfold compositeOrder topTask at h
  cases htop : p.task? p.top with
  | none => simp [htop, bind, Except.bind] at h
  | some top =>
    simp only [htop, bind, Except.bind] at h
    cases hv : p.visit (p.taskTable.length + 1) [] top {} with
    | error e => simp [hv] at h
    | ok v =>
      simp only [hv] at h
      cases h
      have hlast (hcomp : top.isComposite = true) : v.order.getLast? = some top :=
        visit_last hcomp (by simp) hv
      obtain ⟨new, hnew, hreach⟩ := visit_collects hv
      refine ⟨top, rfl, hfirst, fun t => ⟨fun ht => ⟨hfirst.composite t ht, ?_⟩, ?_⟩, hlast⟩
      · rw [hnew] at ht
        exact hreach t ht
      · rintro ⟨hcomp, hbelow⟩
        exact hfirst.mem_of_reaches (fun h => List.mem_of_getLast? (hlast h)) hbelow hcomp

theorem fault_of_error {e : GraphError} (h : p.compositeOrder = .error e) : p.Fault e := by
  unfold compositeOrder topTask at h
  cases htop : p.task? p.top with
  | none =>
    simp only [htop, bind, Except.bind] at h
    cases h
    exact .top htop
  | some top =>
    simp only [htop, bind, Except.bind] at h
    cases hv : p.visit (p.taskTable.length + 1) [] top {} with
    | ok v => simp [hv, pure, Except.pure] at h
    | error e' =>
      simp only [hv, Except.error.injEq] at h
      subst h
      exact visit_fault (Trail.start htop) hv

/-- A program without faults below its top task. -/
structure Orderable (p : Program) (top : Task) : Prop where
  known : p.task? p.top = some top
  defined : ∀ t, p.Reaches top t → t.isComposite = true → ∀ n ∈ t.childNames,
    (p.task? n).isSome = true
  acyclic : ∀ t, p.Reaches top t → t.isComposite = true → ¬ Relation.TransGen p.Places t t

theorem Fault.not_orderable {e : GraphError} (h : p.Fault e) (top : Task) : ¬ p.Orderable top := by
  intro ho
  have hsame {above : List Task} {t : Task} (htrail : p.Trail above t) : p.Reaches top t := by
    obtain ⟨top', htop, hreach⟩ := htrail.reached
    rw [ho.known] at htop
    exact Option.some.inj htop ▸ hreach
  cases h with
  | top h =>
    rw [ho.known] at h
    cases h
  | child htrail hcomp hname hnone =>
    have hdefined := ho.defined _ (hsame htrail) hcomp _ hname
    rw [hnone] at hdefined
    cases hdefined
  | cycle htrail hagain =>
    have hcycle := htrail.leads _ hagain
    obtain ⟨u, hu, -⟩ := Relation.TransGen.head'_iff.1 hcycle
    exact ho.acyclic _ (hsame htrail) hu.composite hcycle

theorem TopologicalFrom.orderable {top : Task} {order : List Task}
    (h : p.TopologicalFrom top order) (htop : p.task? p.top = some top) : p.Orderable top where
  known := htop
  defined := by
    intro t hreach hcomp n hn
    obtain ⟨before, after, hsplit⟩ := List.append_of_mem ((h.mem_iff t).2 ⟨hcomp, hreach⟩)
    obtain ⟨child, hchild, -⟩ := h.childrenFirst.below before t after hsplit n hn
    simp [hchild]
  acyclic := fun t hreach hcomp => h.childrenFirst.not_cyclic ((h.mem_iff t).2 ⟨hcomp, hreach⟩)

/-- There is an order of composition exactly if the top task is defined, the children of every
composite that it reaches are defined, and none of these composites reaches itself.  The order has
every composite that the top task reaches, once, and nothing else; each comes after all composites
that it places, and the top task, if it is composite, comes last.  A failure names a missing task or
a way down on which a task is met again. -/
theorem compositeOrder_topological (p : Program) :
    ((∃ order, p.compositeOrder = .ok order) ↔ ∃ top, p.task? p.top = some top ∧
      (∀ t, p.Reaches top t → t.isComposite = true → ∀ n ∈ t.childNames,
        ∃ child, p.task? n = some child) ∧
      ∀ t, p.Reaches top t → t.isComposite = true → ¬ Relation.TransGen p.Places t t) ∧
    (∀ order, p.compositeOrder = .ok order → ∃ top, p.task? p.top = some top ∧
      (∀ t, t ∈ order ↔ t.isComposite = true ∧ p.Reaches top t) ∧ order.Nodup ∧
      (∀ before t after, order = before ++ t :: after → ∀ n ∈ t.childNames,
        ∃ child, p.task? n = some child ∧ (child.isComposite = true → child ∈ before)) ∧
      (top.isComposite = true → order.getLast? = some top)) ∧
    ∀ e, p.compositeOrder = .error e → p.Fault e := by
  refine ⟨⟨fun ⟨order, horder⟩ => ?_, fun ⟨top, htop, hdefined, hacyclic⟩ => ?_⟩,
    fun order horder => ?_, fun e => fault_of_error⟩
  · obtain ⟨top, htop, htopo⟩ := topologicalFrom_of_ok horder
    have ho := htopo.orderable htop
    exact ⟨top, htop, fun t hr hc n hn => Option.isSome_iff_exists.1 (ho.defined t hr hc n hn),
      ho.acyclic⟩
  · cases horder : p.compositeOrder with
    | ok order => exact ⟨order, rfl⟩
    | error e =>
      refine absurd ⟨htop, fun t hr hc n hn => ?_, hacyclic⟩ ((fault_of_error horder).not_orderable
        top)
      obtain ⟨child, hchild⟩ := hdefined t hr hc n hn
      simp [hchild]
  · obtain ⟨top, htop, htopo⟩ := topologicalFrom_of_ok horder
    exact ⟨top, htop, htopo.mem_iff, htopo.childrenFirst.nodup, htopo.childrenFirst.below,
      htopo.last⟩

/-- A composite task that places each of some tasks once. -/
def above (name : String) (below : List String) : Task where
  name := name
  level := .composite
  childTable := below.map fun n => ⟨n, [⟨0, []⟩]⟩

/-- Two tasks that share a child. -/
def diamond : Program :=
  ⟨"Top", [above "Left" ["Shared"], above "Right" ["Shared"], above "Shared" [],
    above "Top" ["Left", "Right"]]⟩

/-- In a diamond the shared task is listed once and before both that place it; a task that places
itself is no part of an order. -/
theorem compositeOrder_topological_diamond :
    (∃ order, diamond.compositeOrder = .ok order ∧ order.Nodup ∧
      order.getLast? = some (above "Top" ["Left", "Right"])) ∧
    ¬ ∃ order, (⟨"Top", [above "Top" ["Top"]]⟩ : Program).compositeOrder = .ok order := by
  obtain ⟨-, hlisted, -⟩ := compositeOrder_topological diamond
  obtain ⟨top, htop, -, hnodup, -, hlast⟩ := hlisted _ rfl
  cases htop
  refine ⟨⟨_, rfl, hnodup, hlast rfl⟩, fun hsome => ?_⟩
  obtain ⟨top, htop, -, hacyclic⟩ := (compositeOrder_topological _).1.1 hsome
  cases htop
  exact hacyclic _ .refl rfl (.single ⟨rfl, by decide, rfl⟩)

end Program

end TaskLoom
