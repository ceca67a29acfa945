import TaskLoom.Description.Basic
import TaskLoom.Proofs.Text.Bytes
import TaskLoom.Proofs.Text.Sorting

/-!
# What a decoded program satisfies

A description is read from a tree in which each object has each of its names once
(`Value.Distinct`, `distinct_distinct`).  So the tasks of a program that was decoded have different
names, and so do the children and streams of each task and the arguments of each placement, while
nothing is said about the order in which they stand.  All its categories are known ones.
`Program.Decoded` collects this for every program that was decoded, and `decoded_of_ofValue` is the
main statement.
-/

namespace TaskLoom

section
variable {α : Type} {ms ns : List (String × α)}

theorem lastOfEach_sublist (ms : List (String × α)) : (lastOfEach ms).Sublist ms := by
  induction ms with
  | nil => exact .slnil
  | cons m ms ih =>
    rw [lastOfEach]
    split
    · exact ih.trans (List.sublist_cons_self _ _)
    · exact ih.cons_cons _

theorem nodup_lastOfEach (ms : List (String × α)) : ((lastOfEach ms).map Prod.fst).Nodup := by
  induction ms with
  | nil => exact .nil
  | cons m ms ih =>
    rw [lastOfEach]
    split
    · exact ih
    · rename_i hnone
      refine List.nodup_cons.2 ⟨fun hmem => hnone ?_, ih⟩
      obtain ⟨n, hn, hname⟩ := List.mem_map.1 hmem
      exact List.any_eq_true.2 ⟨n, (lastOfEach_sublist ms).subset hn, beq_iff_eq.2 hname⟩

theorem lastOfEach_of_nodup (h : (ms.map Prod.fst).Nodup) : lastOfEach ms = ms := by
  induction ms with
  | nil => rfl
  | cons m ms ih =>
    obtain ⟨hm, hms⟩ := List.nodup_cons.1 h
    have hnone : ¬ ms.any (·.1 == m.1) = true := fun hany => by
      obtain ⟨n, hn, hname⟩ := List.any_eq_true.1 hany
      exact hm (List.mem_map.2 ⟨n, hn, beq_iff_eq.1 hname⟩)
    rw [lastOfEach, if_neg hnone, ih hms]

theorem mem_of_mem_lastOfEach {e : String × α} (h : e ∈ lastOfEach ms) : e ∈ ms :=
  (lastOfEach_sublist ms).subset h

theorem mem_overlaid {e : String × α} (h : e ∈ overlaid ms ns) : e ∈ ms ∨ e ∈ ns :=
  (List.mem_append.1 h).imp_left List.mem_of_mem_filter

theorem nodup_overlaid (hm : (ms.map Prod.fst).Nodup) (hn : (ns.map Prod.fst).Nodup) :
    ((overlaid ms ns).map Prod.fst).Nodup := by
  rw [overlaid, List.map_append]
  refine (hm.sublist (List.filter_sublist.map _)).append hn fun name hmem hname => ?_
  obtain ⟨m, hm, rfl⟩ := List.mem_map.1 hmem
  obtain ⟨n, hn, hname⟩ := List.mem_map.1 hname
  have hne := List.all_eq_true.1 (List.mem_filter.1 hm).2 n hn
  simp [hname] at hne

end

/-- Each object of the tree has each of its names once. -/
inductive Value.Distinct : Value → Prop where
  | null : Distinct .null
  | bool (b : Bool) : Distinct (.bool b)
  | number (n : Quantity) : Distinct (.number n)
  | text (s : String) : Distinct (.text s)
  | list {vs : List Value} (h : ∀ v ∈ vs, Distinct v) : Distinct (.list vs)
  | object {ms : List (String × Value)} (hnd : (ms.map Prod.fst).Nodup)
      (h : ∀ m ∈ ms, Distinct m.2) : Distinct (.object ms)

namespace Value

mutual

theorem distinct_distinct : ∀ v : Value, v.distinct.Distinct
  | .null => .null
  | .bool b => .bool b
  | .number n => .number n
  | .text s => .text s
  | .list vs => .list (distinct_distinctItems vs)
  | .object ms => .object (nodup_lastOfEach _) fun m hm =>
      distinct_distinctMembers ms m (mem_of_mem_lastOfEach hm)

theorem distinct_distinctItems : ∀ vs : List Value, ∀ v ∈ distinctItems vs, v.Distinct
  | [], _, h => by simp [distinctItems] at h
  | w :: ws, v, h => by
    rcases List.mem_cons.1 h with rfl | h
    · exact distinct_distinct w
    · exact distinct_distinctItems ws v h

theorem distinct_distinctMembers :
    ∀ ms : List (String × Value), ∀ m ∈ distinctMembers ms, m.2.Distinct
  | [], _, h => by simp [distinctMembers] at h
  | (_, w) :: ms, m, h => by
    rcases List.mem_cons.1 h with rfl | h
    · exact distinct_distinct w
    · exact distinct_distinctMembers ms m h

end

theorem distinctItems_eq_map (vs : List Value) : distinctItems vs = vs.map distinct := by
  induction vs with
  | nil => rfl
  | cons v vs ih => rw [distinctItems, ih, List.map_cons]

theorem distinctMembers_eq_map (ms : List (String × Value)) :
    distinctMembers ms = ms.map fun m => (m.1, m.2.distinct) := by
  induction ms with
  | nil => rfl
  | cons m ms ih => rw [distinctMembers, ih, List.map_cons]

theorem Distinct.distinct_eq {v : Value} (h : v.Distinct) : v.distinct = v := by
  induction h with
  | list _ ih =>
    rw [distinct, distinctItems_eq_map, List.map_congr_left ih, List.map_id']
  | object hnd _ ih =>
    rw [distinct, distinctMembers_eq_map, List.map_congr_left fun m hm => by rw [ih m hm],
      List.map_id', lastOfEach_of_nodup hnd]
  | _ => rfl

end Value

/-! ### Readings -/

namespace Reading

variable {α β : Type}

theorem map_ok {f : α → β} {r : Reading α} {b : β} :
    f <$> r = .ok b ↔ ∃ a, r = .ok a ∧ f a = b := by
  cases r with
  | ok a => simp [Functor.map, map]
  | faulty fs => simp [Functor.map, map]

theorem seq_ok {f : Reading (α → β)} {r : Reading α} {b : β} :
    f <*> r = .ok b ↔ ∃ g a, f = .ok g ∧ r = .ok a ∧ g a = b := by
  cases f <;> cases r <;> simp [Seq.seq, ap]

theorem all_ok {rs : List (Reading α)} {as : List α} (h : all rs = .ok as) :
    rs = as.map .ok := by
  induction rs generalizing as with
  | nil =>
    cases h
    rfl
  | cons r rs ih =>
    obtain ⟨g, bs, hg, hbs, rfl⟩ := seq_ok.1 h
    obtain ⟨a, rfl, rfl⟩ := map_ok.1 hg
    rw [ih hbs]
    rfl

end Reading

namespace Value

open Reading

variable {α : Type} {item : Value → Reading α} {v : Value}

theorem distinct_memberNamed {ms : List (String × Value)} (h : ∀ m ∈ ms, m.2.Distinct)
    (name : String) : (memberNamed ms name).Distinct := by
  unfold memberNamed
  split
  · rename_i m hm
    exact h m (List.mem_of_find?_eq_some hm)
  · split
    · rename_i m hm
      exact h m (List.mem_of_find?_eq_some hm)
    · exact .null

theorem readRecord_ok {read : List (String × Value) → Reading α} {a : α} (hv : v.Distinct)
    (h : readRecord read v = .ok a) : ∃ ms, (∀ m ∈ ms, m.2.Distinct) ∧ read ms = .ok a := by
  cases hv with
  | null => exact ⟨[], by simp, h⟩
  | object hnd hms => exact ⟨_, hms, h⟩
  | _ => cases h

/-- What is read from a tree without repeated names as one item. -/
def Reads (item : Value → Reading α) (a : α) : Prop := ∃ w : Value, w.Distinct ∧ item w = .ok a

theorem readList_ok {as : List α} (hv : v.Distinct) (h : readList item v = .ok as) :
    ∀ a ∈ as, Reads item a := by
  have hone (w : Value) (hw : w.Distinct) (he : Reading.all [item w] = .ok as) :
      ∀ a ∈ as, Reads item a := by
    intro a ha
    have hmem : (.ok a : Reading α) ∈ [item w] := all_ok he ▸ List.mem_map_of_mem ha
    exact ⟨w, hw, (List.mem_singleton.1 hmem).symm⟩
  cases hv with
  | null =>
    cases h
    simp
  | list hvs =>
    intro a ha
    have hmem : (.ok a : Reading α) ∈ List.map item _ := all_ok h ▸ List.mem_map_of_mem ha
    obtain ⟨w, hw, he⟩ := List.mem_map.1 hmem
    exact ⟨w, hvs w hw, he⟩
  | @object ms hnd hms =>
    cases ms with
    | nil =>
      cases h
      simp
    | cons m ms => exact hone _ (.object hnd hms) h
  | bool b => exact hone _ (.bool b) h
  | number n => exact hone _ (.number n) h
  | text s => exact hone _ (.text s) h

theorem names_readMembers {ms : List (String × Value)} {es : List (String × α)}
    (h : readMembers item ms = .ok es) : es.map Prod.fst = ms.map Prod.fst := by
  induction ms generalizing es with
  | nil =>
    cases h
    rfl
  | cons m ms ih =>
    obtain ⟨g, es', hg, hes, rfl⟩ := seq_ok.1 h
    obtain ⟨e, he, rfl⟩ := map_ok.1 hg
    obtain ⟨a, -, rfl⟩ := map_ok.1 he
    simp [ih hes]

theorem readMembers_ok {ms : List (String × Value)} {es : List (String × α)}
    (hms : ∀ m ∈ ms, m.2.Distinct) (h : readMembers item ms = .ok es) :
    ∀ e ∈ es, Reads item e.2 := by
  induction ms generalizing es with
  | nil =>
    cases h
    simp
  | cons m ms ih =>
    obtain ⟨g, es', hg, hes, rfl⟩ := seq_ok.1 h
    obtain ⟨e, he, rfl⟩ := map_ok.1 hg
    obtain ⟨a, ha, rfl⟩ := map_ok.1 he
    have hreads := ih (fun m' hm' => hms m' (List.mem_cons_of_mem _ hm')) hes
    intro e he
    rcases List.mem_cons.1 he with rfl | he
    · exact ⟨m.2, hms m List.mem_cons_self, ha⟩
    · exact hreads e he

mutual

/-- A table has each of its names once. -/
theorem readTable_ok : ∀ (v : Value) (es : List (String × α)), v.Distinct →
    readTable item v = .ok es → (es.map Prod.fst).Nodup ∧ ∀ e ∈ es, Reads item e.2
  | .null, _, _, h => by
    cases h
    exact ⟨.nil, by simp⟩
  | .object ms, es, hv, h => by
    cases hv with
    | object hnd hms =>
      exact ⟨names_readMembers h ▸ hnd, readMembers_ok hms h⟩
  | .list vs, es, hv, h => by
    cases hv with
    | list hvs => exact readTables_ok vs [] es hvs .nil (by simp) h
  | .bool _, _, _, h => by cases h
  | .number _, _, _, h => by cases h
  | .text _, _, _, h => by cases h

theorem readTables_ok : ∀ (vs : List Value) (before es : List (String × α)),
    (∀ v ∈ vs, v.Distinct) → (before.map Prod.fst).Nodup → (∀ e ∈ before, Reads item e.2) →
    readTables item before vs = .ok es → (es.map Prod.fst).Nodup ∧ ∀ e ∈ es, Reads item e.2
  | [], before, es, _, hnd, hb, h => by
    cases h
    exact ⟨hnd, hb⟩
  | v :: vs, before, es, hvs, hnd, hb, h => by
    unfold readTables at h
    cases hv : readTable item v with
    | faulty fs => simp [hv] at h
    | ok ms =>
      rw [hv] at h
      obtain ⟨hms, hreads⟩ := readTable_ok v ms (hvs v List.mem_cons_self) hv
      refine readTables_ok vs (overlaid before ms) es (fun w hw => hvs w (List.mem_cons_of_mem _ hw))
        (nodup_overlaid hnd hms) (fun e he => ?_) h
      exact (mem_overlaid he).elim (hb e) (hreads e)

end

end Value

/-! ### Descriptions -/

namespace Description

open Value Reading

theorem nodup_args {v : InvocationEntry} (h : Reads readInvocation v) :
    (v.args.map Prod.fst).Nodup := by
  obtain ⟨w, hw, h⟩ := h
  obtain ⟨ms, hms, h⟩ := readRecord_ok hw h
  obtain ⟨g, args, hg, hargs, rfl⟩ := seq_ok.1 h
  obtain ⟨step, -, rfl⟩ := map_ok.1 hg
  exact (readTable_ok _ _ (distinct_memberNamed hms _) hargs).1

/-- The names inside a task are different. -/
structure TaskEntry.Distinct (t : TaskEntry) : Prop where
  children : (t.children.map Prod.fst).Nodup
  args : ∀ c ∈ t.children, ∀ v ∈ c.2, (v.args.map Prod.fst).Nodup
  fifos : (t.fifos.map Prod.fst).Nodup

theorem distinct_task {t : TaskEntry} (h : Reads readTask t) : t.Distinct := by
  obtain ⟨w, hw, h⟩ := h
  obtain ⟨ms, hms, h⟩ := readRecord_ok hw h
  obtain ⟨g₃, fifos, h₃, hfifos, rfl⟩ := seq_ok.1 h
  obtain ⟨g₂, children, h₂, hchildren, rfl⟩ := seq_ok.1 h₃
  obtain ⟨g₁, ports, h₁, -, rfl⟩ := seq_ok.1 h₂
  obtain ⟨level, -, rfl⟩ := map_ok.1 h₁
  obtain ⟨hnames, hreads⟩ := readTable_ok _ _ (distinct_memberNamed hms _) hchildren
  refine ⟨hnames, fun c hc v hv => ?_, ?_⟩
  · obtain ⟨w, hw, he⟩ := hreads c hc
    exact nodup_args (readList_ok hw he v hv)
  · exact (readTable_ok _ _ (distinct_memberNamed hms _) hfifos).1

theorem distinct_tasks {v : Value} {d : Description} (hv : v.Distinct) (h : read v = .ok d) :
    (d.tasks.map Prod.fst).Nodup ∧ ∀ e ∈ d.tasks, e.2.Distinct := by
  obtain ⟨ms, hms, h⟩ := readRecord_ok hv h
  obtain ⟨g, tasks, hg, htasks, rfl⟩ := seq_ok.1 h
  obtain ⟨top, -, rfl⟩ := map_ok.1 hg
  obtain ⟨hnames, hreads⟩ := readTable_ok _ _ (distinct_memberNamed hms _) htasks
  exact ⟨hnames, fun e he => distinct_task (hreads e he)⟩

/-- The program of a description, if it has one. -/
theorem toProgram_ok {d : Description} {p : Program} (h : d.toProgram = .ok p) :
    p = ⟨d.top, d.tasks.map fun entry => entry.2.toTask entry.1⟩ := by
  unfold toProgram at h
  split at h
  · cases h
  · split at h
    · cases h
    · exact (Except.ok.inj h).symm

theorem ofValue_ok {v : Value} {p : Program} (h : ofValue v = .ok p) :
    ∃ d, read v.distinct = .ok d ∧
      p = ⟨d.top, d.tasks.map fun entry => entry.2.toTask entry.1⟩ := by
  unfold ofValue at h
  cases hd : read v.distinct with
  | faulty fs => simp [hd] at h
  | ok d =>
    simp only [hd] at h
    exact ⟨d, rfl, toProgram_ok h⟩

theorem isValid_namedCategory (s : String) : (namedCategory s).isValid = true := by
  unfold namedCategory
  cases h : Category.ofText? s with
  | none => rfl
  | some c =>
    have hall : ∀ c ∈ Category.named, c.isValid = true := by decide
    exact hall c (List.mem_of_find?_eq_some h)

/-- The tree that some characters describe. -/
def treeOfChars? (style : NumberStyle) (cs : List Char) : Option Value :=
  let whole := match Value.value? (2 * cs.length + 2) Value.maxDepth (Value.skipSpace cs) with
    | some (v, rest) => if (Value.skipSpace rest).isEmpty then some v else none
    | none => none
  (whole.bind (Value.mapNumbers? style.apply)).filter isRoot

/-- The program of a text in ASCII. -/
theorem parse_of_ascii {style : NumberStyle} {s : String} {r : Except DescriptionError Program}
    (hascii : (Text.bytes s).all (·.toNat < 128) = true)
    (h : (treeOfChars? style (Text.asciiChars s)).map ofValue = some r) : parse style s = r := by
  have htree : tree? style s = treeOfChars? style (Text.asciiChars s) := by
    rw [← Text.toList_of_ascii (by simpa using hascii)]
    rfl
  obtain ⟨v, hv, rfl⟩ := Option.map_eq_some_iff.1 h
  rw [parse, htree, hv]

end Description

/-- A program whose names are different wherever they have to be, and whose categories are known. -/
structure Program.Decoded (p : Program) : Prop where
  tasks : (p.taskTable.map Task.name).Nodup
  ports : ∀ t ∈ p.taskTable, ∀ q ∈ t.ports, q.category.isValid = true
  children : ∀ t ∈ p.taskTable, (t.childTable.map Child.task).Nodup
  args : ∀ t ∈ p.taskTable, ∀ c ∈ t.childTable, ∀ v ∈ c.invocations, (v.args.map Arg.name).Nodup
  fifos : ∀ t ∈ p.taskTable, (t.fifoTable.map Fifo.name).Nodup

open Description

theorem Program.decoded_of_ofValue {v : Value} {p : Program} (h : Description.ofValue v = .ok p) :
    p.Decoded := by
  obtain ⟨d, hd, rfl⟩ := ofValue_ok h
  obtain ⟨hnames, htasks⟩ := distinct_tasks v.distinct_distinct hd
  have hentry : ∀ t ∈ d.tasks.map (fun entry => entry.2.toTask entry.1),
      ∃ name e, e.Distinct ∧ t = TaskEntry.toTask name e := by
    intro t ht
    obtain ⟨⟨name, e⟩, he, rfl⟩ := List.mem_map.1 ht
    exact ⟨name, e, htasks _ he, rfl⟩
  refine ⟨?_, fun t ht q hq => ?_, fun t ht => ?_, fun t ht c hc w hw => ?_, fun t ht => ?_⟩
  · rw [List.map_map]
    exact hnames
  · obtain ⟨name, e, -, rfl⟩ := hentry t ht
    obtain ⟨pe, -, rfl⟩ := List.mem_map.1 hq
    exact isValid_namedCategory _
  · obtain ⟨name, e, he, rfl⟩ := hentry t ht
    rw [TaskEntry.toTask, List.map_map]
    exact he.children.sublist (List.filter_sublist.map _)
  · obtain ⟨name, e, he, rfl⟩ := hentry t ht
    obtain ⟨⟨child, vs⟩, hce, rfl⟩ := List.mem_map.1 hc
    obtain ⟨ve, hve, rfl⟩ := List.mem_map.1 hw
    rw [InvocationEntry.toInvocation, List.map_map]
    exact he.args _ (List.mem_of_mem_filter hce) ve hve
  · obtain ⟨name, e, he, rfl⟩ := hentry t ht
    rw [TaskEntry.toTask, List.map_map]
    exact he.fifos

theorem Program.decoded_of_parse {style : NumberStyle} {s : String} {p : Program}
    (h : parse style s = .ok p) : p.Decoded := by
  unfold parse at h
  split at h
  · exact decoded_of_ofValue h
  · cases h

end TaskLoom
