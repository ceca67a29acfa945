import TaskLoom.Graph.Tree
import TaskLoom.Proofs.Description.Decoding
import TaskLoom.Proofs.Graph.Reachable
import TaskLoom.Proofs.Graph.StreamSides

/-!
# The tree of instances is finite and complete

The walk that draws the instances below the top task keeps no record of where it has been.
`Program.Walks` is that walk without a bound on its depth, with the depth to which its calls are
nested; where there is such a walk, `Program.subtrees` finds its forest with every bound that is not
below that depth (`Walks.subtrees`).  On a way down from the top of an orderable program no
composite is met twice (`Trail.nodup`), and so a walk from the top nests at most as many calls as
there are composites (`Trail.walks`).

`Program.Way` says what a node of the tree stands for: a stream or an instance at the end of a way
down through composites.  The main statement is `drawing_complete`: the tree of an accepted program
has one node for each way, and no other, and its drawing has one line for each node
(`LabelTree.drawAll_lines`).
-/

namespace TaskLoom

/-! ### Nodes with what is above them -/

namespace LabelTree

mutual

/-- The tags and labels from the root of a tree down to each of its nodes. -/
def ways : LabelTree → List (List (String × String))
  | .node tag label below => [(tag, label)] :: (waysAll below).map ((tag, label) :: ·)

/-- The same for the trees of a forest, one after the other. -/
def waysAll : List LabelTree → List (List (String × String))
  | [] => []
  | t :: ts => ways t ++ waysAll ts

end

theorem waysAll_append (ts us : List LabelTree) :
    waysAll (ts ++ us) = waysAll ts ++ waysAll us := by
  induction ts with
  | nil => rfl
  | cons t ts ih => rw [List.cons_append, waysAll, waysAll, ih, List.append_assoc]

/-- The line of a node at the end of a way down: the last tag and label, indented by four characters
for each node above that is drawn.  A label of several lines goes on behind the margin. -/
def IsLine (indent : Nat) (way : List (String × String)) (line : String) : Prop :=
  ∃ margin branch deeper tag label, way.getLast? = some (tag, label) ∧
    margin.length + 4 = indent + 4 * way.length ∧ (branch = "├──" ∨ branch = "└──") ∧
    line = margin ++ branch ++ " [" ++ tag ++ "]  " ++ shifted deeper label ++ "\n"

/-- A line below a node is a line below what is above the node. -/
theorem IsLine.below {indent : Nat} {way : List (String × String)} {line : String}
    (h : IsLine (indent + 4) way line) (above : String × String) :
    IsLine indent (above :: way) line := by
  obtain ⟨margin, branch, deeper, tag, label, hlast, hlen, hbranch, hline⟩ := h
  refine ⟨margin, branch, deeper, tag, label, ?_, ?_, hbranch, hline⟩
  · obtain ⟨x, xs, rfl⟩ :=
      List.exists_cons_of_ne_nil (List.ne_nil_of_mem (List.mem_of_getLast? hlast))
    rw [List.getLast?_cons_cons, hlast]
  · rw [List.length_cons]
    omega

mutual

/-- A tree is drawn with one line for each node, in the order of the ways down to them. -/
theorem draw_lines (margin : String) (isLast : Bool) : ∀ t : LabelTree, ∃ lines,
    draw margin isLast t = String.join lines ∧
      List.Forall₂ (IsLine margin.length) (ways t) lines
  | .node tag label below => by
    let deeper := margin ++ (if isLast then "    " else "│   ")
    obtain ⟨lines, hdraw, hlines⟩ := drawAll_lines deeper below
    have hdeeper : deeper.length = margin.length + 4 := by
      rw [String.length_append]
      cases isLast <;> rfl
    refine ⟨(margin ++ (if isLast then "└──" else "├──") ++ " [" ++ tag ++ "]  " ++
      shifted deeper label ++ "\n") :: lines, ?_, .cons ?_ ?_⟩
    · rw [String.join_cons, ← hdraw, draw]
    · exact ⟨margin, _, deeper, tag, label, rfl, rfl, by cases isLast <;> simp, rfl⟩
    · rw [List.forall₂_map_left_iff]
      exact List.Forall₂.imp (fun _ _ h => h.below _) (hdeeper ▸ hlines)

/-- The same for a forest. -/
theorem drawAll_lines (margin : String) : ∀ ts : List LabelTree, ∃ lines,
    drawAll margin ts = String.join lines ∧
      List.Forall₂ (IsLine margin.length) (waysAll ts) lines
  | [] => ⟨[], rfl, .nil⟩
  | [t] => by
    obtain ⟨lines, hdraw, hlines⟩ := draw_lines margin true t
    exact ⟨lines, hdraw, by rwa [waysAll, waysAll, List.append_nil]⟩
  | t :: u :: ts => by
    obtain ⟨lines, hdraw, hlines⟩ := draw_lines margin false t
    obtain ⟨lines', hdraw', hlines'⟩ := drawAll_lines margin (u :: ts)
    exact ⟨lines ++ lines', by rw [drawAll, hdraw, hdraw', String.join_append],
      List.rel_append hlines hlines'⟩

end

end LabelTree

/-- What a node of the tree stands for. -/
inductive Spot where
  | stream (f : Fifo)
  | placed (i : Instance)
  deriving DecidableEq, Repr, Inhabited

/-- The tag and the label of a node. -/
def Spot.mark : Spot → String × String
  | .stream f => ("fifo", f.label)
  | .placed i => (i.tag, i.name ++ ": " ++ i.task.name)

theorem Instance.Before.ne {i j : Instance} (h : i.Before j) : i ≠ j := by
  rintro rfl
  rcases h with h | ⟨-, h⟩
  · exact String.lt_irrefl _ h
  · exact Nat.lt_irrefl _ h

namespace Program

variable {p : Program} {t top : Task} {placed : List Instance} {depth : Nat}
  {forest : List LabelTree} {w : List Spot} {above : List Task}

/-- The ways down from a task: through composite instances to an instance or a stream. -/
inductive Way (p : Program) : Task → List Spot → Prop where
  | stream {t : Task} {f : Fifo} (hf : f ∈ t.fifoTable) : Way p t [.stream f]
  | here {t : Task} {placed : List Instance} {i : Instance} (h : p.instances t = .ok placed)
      (hi : i ∈ placed) : Way p t [.placed i]
  | deeper {t : Task} {placed : List Instance} {i : Instance} {w : List Spot}
      (h : p.instances t = .ok placed) (hi : i ∈ placed) (hcomp : i.task.isComposite = true)
      (hw : Way p i.task w) : Way p t (.placed i :: w)

theorem way_iff (h : p.instances t = .ok placed) :
    p.Way t w ↔ (∃ f ∈ t.fifoTable, w = [.stream f]) ∨ ∃ i ∈ placed, w = [.placed i] ∨
      i.task.isComposite = true ∧ ∃ w', p.Way i.task w' ∧ w = .placed i :: w' := by
  constructor
  · intro hw
    cases hw with
    | stream hf => exact .inl ⟨_, hf, rfl⟩
    | here h' hi =>
      cases h.symm.trans h'
      exact .inr ⟨_, hi, .inl rfl⟩
    | deeper h' hi hcomp hw =>
      cases h.symm.trans h'
      exact .inr ⟨_, hi, .inr ⟨hcomp, _, hw, rfl⟩⟩
  · rintro (⟨f, hf, rfl⟩ | ⟨i, hi, rfl | ⟨hcomp, w', hw, rfl⟩⟩)
    · exact .stream hf
    · exact .here h hi
    · exact .deeper h hi hcomp hw

/-! ### The walk -/

/-- The trees that a walk puts below a task, from those below its instances. -/
def grown (t : Task) (placed : List Instance) (inner : Instance → List LabelTree) :
    List LabelTree :=
  t.fifos.map (fun f => LabelTree.node "fifo" f.label []) ++
    placed.map fun i => LabelTree.node i.tag (i.name ++ ": " ++ i.task.name) (inner i)

theorem mapM_ok {α β ε : Type} {visit : α → Except ε β} {f : α → β} {xs : List α}
    (h : ∀ x ∈ xs, visit x = .ok (f x)) : xs.mapM visit = .ok (xs.map f) := by
  induction xs with
  | nil => rfl
  | cons x xs ih =>
    rw [List.mapM_cons, h x List.mem_cons_self, ih fun y hy => h y (List.mem_cons_of_mem _ hy)]
    rfl

/-- A walk below a task that ends without a failure, its calls nested at most so deep: it goes into
each composite instance, and into nothing else. -/
inductive Walks (p : Program) : Nat → Task → List LabelTree → Prop where
  | task {depth : Nat} {t : Task} {placed : List Instance} (h : p.instances t = .ok placed)
      (inner : Instance → List LabelTree)
      (hleaf : ∀ i ∈ placed, i.task.isComposite = false → inner i = [])
      (hcomp : ∀ i ∈ placed, i.task.isComposite = true → Walks p depth i.task (inner i)) :
      Walks p (depth + 1) t (grown t placed inner)

/-- A walk is the one that is made with a bound, wherever the bound is not below its depth. -/
theorem Walks.subtrees (h : p.Walks depth t forest) {bound : Nat} (hbound : depth ≤ bound) :
    p.subtrees bound t = .ok forest := by
  induction h generalizing bound with
  | @task depth t placed h inner hleaf hcomp ih =>
    obtain ⟨bound, rfl⟩ := Nat.exists_eq_add_of_le hbound
    rw [Nat.add_right_comm, Program.subtrees, h]
    simp only [bind, Except.bind]
    rw [mapM_ok (f := fun i => LabelTree.node i.tag (i.name ++ ": " ++ i.task.name) (inner i))]
    · rfl
    · intro i hi
      by_cases hc : i.task.isComposite = true
      · rw [if_pos hc, ih i hi hc (Nat.le_add_right _ _)]
        rfl
      · rw [if_neg hc, hleaf i hi (by simpa using hc)]
        rfl

/-- There is one walk below a task. -/
theorem Walks.unique {depth' : Nat} {forest' : List LabelTree} (h : p.Walks depth t forest)
    (h' : p.Walks depth' t forest') : forest = forest' :=
  Except.ok.inj ((h.subtrees (Nat.le_max_left depth depth')).symm.trans
    (h'.subtrees (Nat.le_max_right depth depth')))

/-- On a way down to a composite of an orderable program no task is met twice. -/
theorem Trail.nodup (ho : p.Orderable top) (h : p.Trail above t) (hcomp : t.isComposite = true) :
    (above ++ [t]).Nodup := by
  induction h with
  | start h => exact List.nodup_singleton _
  | @step above t u h hu ih =>
    have htrail := h.step hu
    obtain ⟨top', htop, hreach⟩ := htrail.reached
    cases ho.known.symm.trans htop
    refine List.nodup_append.2 ⟨ih hu.composite, List.nodup_singleton _, ?_⟩
    intro w hw w' hw' he
    rw [List.mem_singleton.1 hw'] at he
    exact ho.acyclic u hreach hcomp (htrail.leads u (he ▸ hw))

theorem Trail.composite_above (h : p.Trail above t) : ∀ u ∈ above, u.isComposite = true := by
  induction h with
  | start h => simp
  | step h hu ih =>
    intro w hw
    rcases List.mem_append.1 hw with hw | hw
    · exact ih w hw
    · rw [List.mem_singleton.1 hw]
      exact hu.composite

/-- A way down to a composite is no longer than there are composites. -/
theorem Trail.length_lt (ho : p.Orderable top) (h : p.Trail above t)
    (hcomp : t.isComposite = true) : above.length < p.taskTable.countP Task.isComposite := by
  have hmem : above ++ [t] ⊆ p.taskTable.filter Task.isComposite := by
    intro u hu
    rcases List.mem_append.1 hu with hu | hu
    · exact List.mem_filter.2 ⟨mem_of_task? (h.known_above u hu), h.composite_above u hu⟩
    · rw [List.mem_singleton.1 hu]
      exact List.mem_filter.2 ⟨mem_of_task? h.known, hcomp⟩
  have hlen := (List.subperm_of_subset (h.nodup ho hcomp) hmem).length_le
  rw [← List.countP_eq_length_filter, List.length_append] at hlen
  exact hlen

/-- Below a composite on a way down from the top there is a walk, whose calls are nested at most as
deep as there are composites that are not above it. -/
theorem Trail.walks (ho : p.Orderable top)
    (hplaced : ∀ t ∈ p.taskTable, t.isComposite = true → ∃ placed, p.instances t = .ok placed)
    (h : p.Trail above t) (hcomp : t.isComposite = true)
    (hdepth : p.taskTable.countP Task.isComposite ≤ above.length + depth) :
    ∃ forest, p.Walks depth t forest := by
  induction depth generalizing above t with
  | zero => exact absurd (h.length_lt ho hcomp) (by omega)
  | succ depth ih =>
    obtain ⟨placed, hp⟩ := hplaced t (mem_of_task? h.known) hcomp
    have hinner (i : Instance) : ∃ inner : List LabelTree, (i.task.isComposite = false → inner = [])
        ∧ (i ∈ placed → i.task.isComposite = true → p.Walks depth i.task inner) := by
      by_cases hi : i ∈ placed ∧ i.task.isComposite = true
      · obtain ⟨c, -, hknown, -⟩ := (mem_instances hp).1 hi.1
        have hplaces : p.Places t i.task := ⟨hcomp, name_mem_childNames hp hi.1, task?_name hknown⟩
        obtain ⟨forest, hforest⟩ := ih (h.step hplaces) hi.2 (by
          rw [List.length_append, List.length_singleton]
          omega)
        exact ⟨forest, fun hleaf => absurd hi.2 (by simp [hleaf]), fun _ _ => hforest⟩
      · exact ⟨[], fun _ => rfl, fun hmem hc => absurd ⟨hmem, hc⟩ hi⟩
    choose inner hleaf hwalks using hinner
    exact ⟨_, .task hp inner (fun i _ => hleaf i) fun i hi => hwalks i hi⟩

/-! ### One node for each way -/

/-- The ways below a task are listed by the nodes of a forest, one for each. -/
def Covers (p : Program) (t : Task) (forest : List LabelTree) : Prop :=
  ∃ ways : List (List Spot), ways.Nodup ∧ (∀ w, w ∈ ways ↔ p.Way t w) ∧
    LabelTree.waysAll forest = ways.map (List.map Spot.mark)

/-- The ways that start with an instance, from those below it. -/
def waysThrough (i : Instance) (below : List (List Spot)) : List (List Spot) :=
  [.placed i] :: below.map (.placed i :: ·)

theorem mem_waysThrough {i : Instance} {below : List (List Spot)} :
    w ∈ waysThrough i below ↔ w = [.placed i] ∨ ∃ w' ∈ below, w = .placed i :: w' := by
  simp [waysThrough, eq_comm]

theorem nodup_waysThrough {i : Instance} {below : List (List Spot)} (h : below.Nodup)
    (hne : [] ∉ below) : (waysThrough i below).Nodup := by
  refine List.nodup_cons.2 ⟨fun hmem => ?_, h.map fun _ _ he => (List.cons.inj he).2⟩
  obtain ⟨w', hw', he⟩ := List.mem_map.1 hmem
  exact hne ((List.cons.inj he).2 ▸ hw')

theorem waysAll_streams (fs : List Fifo) :
    LabelTree.waysAll (fs.map fun f => LabelTree.node "fifo" f.label []) =
      (fs.map fun f => [Spot.stream f]).map (List.map Spot.mark) := by
  induction fs with
  | nil => rfl
  | cons f fs ih =>
    rw [List.map_cons, LabelTree.waysAll, ih]
    rfl

theorem waysAll_instances {inner : Instance → List LabelTree}
    {below : Instance → List (List Spot)}
    (h : ∀ i ∈ placed, LabelTree.waysAll (inner i) = (below i).map (List.map Spot.mark)) :
    LabelTree.waysAll (placed.map fun i =>
        LabelTree.node i.tag (i.name ++ ": " ++ i.task.name) (inner i)) =
      (placed.flatMap fun i => waysThrough i (below i)).map (List.map Spot.mark) := by
  induction placed with
  | nil => rfl
  | cons i placed ih =>
    rw [List.map_cons, LabelTree.waysAll, ih fun j hj => h j (List.mem_cons_of_mem _ hj),
      LabelTree.ways, h i List.mem_cons_self, List.flatMap_cons, List.map_append]
    simp [waysThrough, Spot.mark]

/-- Where the trees below the composite instances of a task cover what is below these, the trees of
the task cover what is below it. -/
theorem covers_grown (hp : p.instances t = .ok placed) (hfifos : t.fifoTable.Nodup)
    (hplaced : placed.Nodup) {inner : Instance → List LabelTree}
    (hleaf : ∀ i ∈ placed, i.task.isComposite = false → inner i = [])
    (hcomp : ∀ i ∈ placed, i.task.isComposite = true → p.Covers i.task (inner i)) :
    p.Covers t (grown t placed inner) := by
  have hbelow (i : Instance) : ∃ below : List (List Spot), i ∈ placed → below.Nodup ∧
      (∀ w, w ∈ below ↔ i.task.isComposite = true ∧ p.Way i.task w) ∧
      LabelTree.waysAll (inner i) = below.map (List.map Spot.mark) := by
    by_cases hi : i ∈ placed
    · cases hc : i.task.isComposite with
      | false => exact ⟨[], fun _ => ⟨List.nodup_nil, by simp, by rw [hleaf i hi hc]; rfl⟩⟩
      | true =>
        obtain ⟨ways, hnd, hmem, hall⟩ := hcomp i hi hc
        exact ⟨ways, fun _ => ⟨hnd, by simpa using hmem, hall⟩⟩
    · exact ⟨[], fun hmem => absurd hmem hi⟩
  choose below hbelow using hbelow
  refine ⟨t.fifos.map (fun f => [.stream f]) ++ placed.flatMap (fun i => waysThrough i (below i)),
    ?_, fun w => ?_, ?_⟩
  · have hordered : t.fifos.Nodup := (Text.perm_sortedBy _ _).nodup_iff.2 hfifos
    refine List.nodup_append.2 ⟨hordered.map fun f g he => ?_, ?_, ?_⟩
    · simpa using he
    · refine List.nodup_flatMap.2 ⟨fun i hi => nodup_waysThrough (hbelow i hi).1 fun hnil => ?_, ?_⟩
      · cases (((hbelow i hi).2.1 []).1 hnil).2
      · refine hplaced.imp fun {i j} hij w hwi hwj => hij ?_
        rcases mem_waysThrough.1 hwi with rfl | ⟨w', -, rfl⟩ <;>
          rcases mem_waysThrough.1 hwj with he | ⟨w'', -, he⟩ <;> simp_all
    · rintro w hw _ hw' rfl
      obtain ⟨f, -, rfl⟩ := List.mem_map.1 hw
      obtain ⟨i, -, hw'⟩ := List.mem_flatMap.1 hw'
      rcases mem_waysThrough.1 hw' with he | ⟨w', -, he⟩ <;> cases he
  · rw [way_iff hp, List.mem_append, List.mem_map, List.mem_flatMap]
    refine or_congr ⟨?_, ?_⟩ (exists_congr fun i => and_congr_right fun hi => ?_)
    · rintro ⟨f, hf, rfl⟩
      exact ⟨f, Task.mem_fifos.1 hf, rfl⟩
    · rintro ⟨f, hf, rfl⟩
      exact ⟨f, Task.mem_fifos.2 hf, rfl⟩
    · simp only [mem_waysThrough, (hbelow i hi).2.1, and_assoc, exists_and_left]
  · rw [grown, LabelTree.waysAll_append, waysAll_streams, List.map_append,
      waysAll_instances fun i hi => (hbelow i hi).2.2]

/-- A walk covers what is below a task. -/
theorem Walks.covers (hp : p.Decoded) (h : p.Walks depth t forest) (ht : t ∈ p.taskTable) :
    p.Covers t forest := by
  induction h with
  | task h inner hleaf hcomp ih =>
    have hplaced := (pairwise_instances (hp.children _ ht) h).imp Instance.Before.ne
    refine covers_grown h ((hp.fifos _ ht).of_map) hplaced hleaf fun i hi hc => ih i hi hc ?_
    obtain ⟨c, -, hknown, -⟩ := (mem_instances h).1 hi
    exact mem_of_task? hknown

theorem composite_of_check (h : Program.check (some p) = .ok ()) (htop : p.task? p.top = some top) :
    top.isComposite = true := by
  by_contra hleaf
  simp [check, issues, htop, hleaf] at h

/-- In a program that was decoded and accepted, the tree of the instances below the top task is
drawn without a failure.  The walk that grows it is nested no deeper than there are composite
tasks, and any walk from the top grows this tree.  With what is above it, each node of the tree
stands for one way down from the top task through composites, to an instance or to a stream of the
composite there, and each such way has one node and one line of the drawing. -/
theorem drawing_complete {v : Value} (hv : Description.ofValue v = .ok p)
    (h : Program.check (some p) = .ok ()) :
    ∃ top forest, p.task? p.top = some top ∧ top.isComposite = true ∧
      p.Walks (p.taskTable.countP Task.isComposite) top forest ∧
      (∀ depth forest', p.Walks depth top forest' → forest' = forest) ∧
      p.drawing = .ok (top.name ++ "\n" ++ LabelTree.drawAll "" forest) ∧
      ∃ ways : List (List Spot), ways.Nodup ∧ (∀ w, w ∈ ways ↔ p.Way top w) ∧
        LabelTree.waysAll forest = ways.map (List.map Spot.mark) ∧
        ∃ lines, LabelTree.drawAll "" forest = String.join lines ∧
          List.Forall₂ (fun w line => LabelTree.IsLine 0 (w.map Spot.mark) line) ways lines := by
  have hacc := accepted_of_check h
  obtain ⟨order, horder⟩ := hacc.ordered
  obtain ⟨top, htop, htopo⟩ := topologicalFrom_of_ok horder
  have hcomp := composite_of_check h htop
  have hplaced : ∀ t ∈ p.taskTable, t.isComposite = true → ∃ placed, p.instances t = .ok placed :=
    fun t ht hc => (hacc.composed t ht hc).imp fun _ hplaced => hplaced.instances
  obtain ⟨forest, hwalk⟩ : ∃ forest, p.Walks (p.taskTable.countP Task.isComposite) top forest :=
    (Trail.start htop).walks (htopo.orderable htop) hplaced hcomp (by simp)
  obtain ⟨ways, hnd, hmem, hall⟩ := hwalk.covers (decoded_of_ofValue hv) (mem_of_task? htop)
  obtain ⟨lines, hdraw, hlines⟩ := LabelTree.drawAll_lines "" forest
  rw [hall, List.forall₂_map_left_iff] at hlines
  refine ⟨top, forest, htop, hcomp, hwalk, fun _ _ h' => h'.unique hwalk, ?_, ways, hnd, hmem, hall,
    lines, hdraw, hlines⟩
  have hbound : p.taskTable.countP Task.isComposite ≤ p.taskTable.length + 1 :=
    List.countP_le_length.trans (Nat.le_succ _)
  simp only [drawing, topTask, htop, hwalk.subtrees hbound, bind, Except.bind]
  rfl

/-- The placement of a child without arguments. -/
def plainUse : Value := .object [("args", .null), ("step", .number (.int 0))]

/-- A description of a task that places two pairs of a writer and a reader, next to a task that
places itself. -/
def pairsTree : Value :=
  .object [
    ("tasks", .object [
      ("A", leafEntry),
      ("B", leafEntry),
      ("Loop", .object [
        ("fifos", .null),
        ("level", .text "upper"),
        ("ports", .null),
        ("tasks", .object [("Loop", .list [plainUse])])]),
      ("Pair", .object [
        ("fifos", .object [("q", .object [
          ("consumed_by", .list [.text "B", .number (.int 0)]),
          ("depth", .number (.int 2)),
          ("produced_by", .list [.text "A", .number (.int 0)])])]),
        ("level", .text "upper"),
        ("ports", .null),
        ("tasks", .object [("A", streamUser "ostream"), ("B", streamUser "istream")])]),
      ("Top", .object [
        ("fifos", .null),
        ("level", .text "upper"),
        ("ports", .null),
        ("tasks", .object [("Pair", .list [plainUse, plainUse])])])]),
    ("top", .text "Top")]

def pairs : Program where
  top := "Top"
  taskTable := [{ name := "A", level := .leaf }, { name := "B", level := .leaf },
    Program.above "Loop" ["Loop"], { straightTask with name := "Pair" },
    { name := "Top", level := .composite,
      childTable := [⟨"Pair", [⟨0, []⟩, ⟨0, []⟩]⟩] }]

theorem ofValue_pairsTree : Description.ofValue pairsTree = .ok pairs := rfl

theorem check_pairs : Program.check (some pairs) = .ok () := by
  with_unfolding_all rfl

/-- The tree of the two pairs has four nodes for each, although the program is cyclic. -/
theorem drawing_complete_pairs :
    (∃ t ∈ pairs.taskTable, pairs.Places t t) ∧
    ∃ top forest, pairs.Walks 3 top forest ∧
      pairs.drawing = .ok (top.name ++ "\n" ++ LabelTree.drawAll "" forest) ∧
      ∃ ways : List (List Spot), ways.Nodup ∧ (∀ w, w ∈ ways ↔ pairs.Way top w) ∧
        ways.length = 8 := by
  obtain ⟨top, forest, htop, -, hwalk, -, hdrawn, ways, hnd, hmem, hall, -⟩ :=
    drawing_complete ofValue_pairsTree check_pairs
  refine ⟨⟨Program.above "Loop" ["Loop"], by decide, rfl, by decide, rfl⟩, top, forest, hwalk,
    hdrawn, ways, hnd, hmem, ?_⟩
  have hforest : pairs.subtrees 3 top = .ok forest := hwalk.subtrees (Nat.le_refl _)
  cases htop
  cases hforest
  rw [← List.length_map (List.map Spot.mark), ← hall]
  rfl

end Program

end TaskLoom
