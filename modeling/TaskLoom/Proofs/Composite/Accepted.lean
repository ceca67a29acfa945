import TaskLoom.Bundle
import TaskLoom.Composite.Generate
import TaskLoom.Proofs.Composite.Grounds
import TaskLoom.Proofs.Description.Decoding
import TaskLoom.Proofs.Graph.Acceptance
import TaskLoom.Proofs.Hdl.Locality
import TaskLoom.Proofs.Output.Sources

/-!
# Generating an accepted program

The checks that a generation makes on the task graph are checks that an accepted program has passed:
references, categories, the sides of streams, and a module for every child.  What is left are
failures about ports, widths and names of modules.

A plan is `Plan.Fit` if it comes from an accepted program with the modules of all children at hand,
and then it gives no grounds for a failure of the graph (`Plan.Fit.isGraph_eq_false`).
`Parts.Stocked p made parts`: the modules of all leaf tasks and of the composite tasks `made` are at
hand; generating a task adds it to `made`.

Main statement: `accepted_generates`.
-/

namespace TaskLoom

/-- Whether the reason of a failure lies in the task graph, and not in a module. -/
def WiringError.isGraph : WiringError → Bool
  | .reference _ => true
  | .unsupported _ _ => true
  | .externalSides _ => true
  | .noProducer _ => true
  | .noConsumer _ => true
  | .sideWithoutModule _ _ => true
  | _ => false

theorem WiringError.kind_ne_unsupported {e : WiringError} (h : e.isGraph = false) :
    e.kind ≠ .unsupportedCategory := by
  cases e with
  | build e => cases e <;> simp [kind, BuildError.kind]
  | unsupported what c => cases h
  | _ => simp [kind]

theorem Program.Joined.checkSides {p : Program} {t : Task} {f : Fifo} (h : p.Joined t f)
    (d : Draft) : f.checkSides d = .ok () d := by
  unfold Fifo.checkSides
  cases hext : f.isExternal with
  | true =>
    have hsides := h.external hext
    have hne : ¬ (f.producer.isNone == f.consumer.isNone) = true := by
      cases hp : f.producer <;> cases hc : f.consumer <;> simp [hp, hc] at hsides ⊢
    rw [if_pos rfl, if_neg hne]
    rfl
  | false =>
    obtain ⟨hp, hc⟩ := h.internal hext
    rw [if_neg (by simp), if_neg (by simp [Option.isSome_iff_ne_none.1 hp]),
      if_neg (by simp [Option.isSome_iff_ne_none.1 hc])]
    rfl

theorem Program.Joined.source {p : Program} {t : Task} {f : Fifo} (h : p.Joined t f) :
    ∃ e r, f.source = some e ∧ p.resolve t f.name (some e) = .ok r := by
  have hside : ∃ e, f.source = some e ∧ (f.producer = some e ∨ f.consumer = some e) := by
    cases hp : f.producer with
    | some e => exact ⟨e, by rw [Fifo.source, hp]; rfl, .inl rfl⟩
    | none =>
      have hc : f.consumer.isSome = true := by
        cases hext : f.isExternal with
        | true => simpa [hp] using h.external hext
        | false => exact (h.internal hext).2
      obtain ⟨e, hc⟩ := Option.isSome_iff_exists.1 hc
      exact ⟨e, by rw [Fifo.source, hp]; exact hc, .inr hc⟩
  obtain ⟨e, hsource, he⟩ := hside
  obtain ⟨r, hr⟩ := h.resolves e he
  exact ⟨e, r, hsource, hr⟩

/-- A plan from an accepted program, with the modules of all instances at hand. -/
structure Plan.Fit (p : Plan) : Prop where
  ports : ∀ q ∈ p.task.ports, q.category.isValid = true
  args : ∀ c ∈ p.children, ∀ a ∈ c.inst.args, a.category.isValid = true
  fifos : ∀ f ∈ p.task.fifoTable, p.program.Joined p.task f
  modules : ∀ placed, p.program.instances p.task = .ok placed →
    ∀ i ∈ placed, (p.parts.module? i.task.name).isSome = true

/-- A plan from an accepted program gives no grounds for a failure of the graph. -/
theorem Plan.Fit.isGraph_eq_false {p : Plan} (h : p.Fit) {e : WiringError} (he : p.Grounds e) :
    e.isGraph = false := by
  cases e with
  | unsupported what k =>
    obtain ⟨hk, ⟨q, hq, rfl⟩ | ⟨i, hi, a, ha, rfl⟩⟩ := he
    · simp [h.ports q hq] at hk
    · obtain ⟨c, hc, rfl⟩ := List.mem_map.1 hi
      simp [h.args c hc a ha] at hk
  | reference e =>
    obtain ⟨f, hf, hr⟩ := he
    obtain ⟨side, r, hsource, hok⟩ := (h.fifos f hf).source
    simp [hsource, hok] at hr
  | externalSides fifo =>
    obtain ⟨f, hf, -, hext, hsides⟩ := he
    have hother := (h.fifos f hf).external hext
    rw [hsides] at hother
    cases hc : f.consumer.isSome <;> simp [hc] at hother
  | noProducer fifo =>
    obtain ⟨f, hf, -, hint, hnone⟩ := he
    simpa [hnone] using ((h.fifos f hf).internal hint).1
  | noConsumer fifo =>
    obtain ⟨f, hf, -, hint, hnone⟩ := he
    simpa [hnone] using ((h.fifos f hf).internal hint).2
  | sideWithoutModule fifo placed =>
    obtain ⟨f, hf, -, i, port, hr, -, hnone⟩ := he
    obtain ⟨side, r, hsource, -⟩ := (h.fifos f hf).source
    rw [hsource] at hr
    obtain ⟨insts, hinsts, hi, -⟩ := Program.resolve_ok hr
    simpa [hnone] using h.modules insts hinsts i hi
  | _ => rfl

/-! ### The modules at hand -/

/-- The modules of all leaf tasks and of the tasks `made` are at hand. -/
def Parts.Stocked (p : Program) (made : List Task) (parts : Parts) : Prop :=
  ∀ n t, p.task? n = some t → (t.isComposite = true → t ∈ made) →
    (parts.module? n).isSome = true

theorem Parts.Stocked.attach {p : Program} {made : List Task} {parts : Parts} {t : Task}
    (h : Parts.Stocked p made parts) (m : Module) :
    Parts.Stocked p (made ++ [t]) (parts.attach t.name m) := by
  intro n u hu hmade
  rw [Parts.module?_attach]
  split
  · rfl
  · rename_i hn
    refine h n u hu fun hc => ?_
    rcases List.mem_append.1 (hmade hc) with hmem | hmem
    · exact hmem
    · rw [List.mem_singleton.1 hmem] at hu
      exact absurd (Program.name_of_task? hu).symm hn

theorem placements_ok {parts : Parts} (task : String) {insts : List Instance}
    (h : ∀ i ∈ insts, (parts.module? i.task.name).isSome = true) :
    ∃ cs, placements parts task insts = .ok cs := by
  induction insts with
  | nil => exact ⟨[], rfl⟩
  | cons i insts ih =>
    obtain ⟨m, hm⟩ := Option.isSome_iff_exists.1 (h i List.mem_cons_self)
    obtain ⟨cs, hcs⟩ := ih fun i' hi' => h i' (List.mem_cons_of_mem _ hi')
    exact ⟨⟨i, m⟩ :: cs, by simp [placements, hm, hcs, bind, Except.bind, pure, Except.pure]⟩

section
variable {o : Options} {p : Program} {parts : Parts} {made : List Task} {t : Task}

/-- Every child of a task is at hand when the composite ones among them have been made. -/
theorem Parts.Stocked.module_of_instance (h : Parts.Stocked p made parts)
    (hbelow : ∀ n ∈ t.childNames,
      ∃ child, p.task? n = some child ∧ (child.isComposite = true → child ∈ made))
    {placed : List Instance} (hplaced : p.instances t = .ok placed) {i : Instance}
    (hi : i ∈ placed) : (parts.module? i.task.name).isSome = true := by
  obtain ⟨child, hchild, hmade⟩ := hbelow i.task.name (Program.name_mem_childNames hplaced hi)
  exact h _ child hchild hmade

theorem generateTask_sound (hd : p.Decoded) (ha : p.Accepted) (ht : t ∈ p.taskTable)
    (htc : t.isComposite = true) (h : Parts.Stocked p made parts)
    (hbelow : ∀ n ∈ t.childNames,
      ∃ child, p.task? n = some child ∧ (child.isComposite = true → child ∈ made))
    {e : ComposeError} (he : (generateTask o p parts t).2 = .error e) :
    ∃ w, e = .inTask t.name w ∧ w.isGraph = false := by
  obtain ⟨placed, hc⟩ := ha.composed t ht htc
  have hmodules : ∀ i ∈ placed, (parts.module? i.task.name).isSome = true :=
    fun i hi => h.module_of_instance hbelow hc.instances hi
  obtain ⟨cs, hcs⟩ := placements_ok t.name hmodules
  have hplan : plan o p parts t = .ok ⟨o, p, parts, t, cs⟩ := by
    simp [plan, htc, hc.instances, hcs, bind, Except.bind, pure, Except.pure]
  have hfit : Plan.Fit ⟨o, p, parts, t, cs⟩ := by
    refine ⟨hd.ports t ht, fun c hcm a ha => ?_, hc.fifos, fun placed' hplaced' => ?_⟩
    · have hmem : c.inst ∈ placed := inst_placements hcs ▸ List.mem_map_of_mem hcm
      exact (hc.args c.inst hmem a ha).category
    · rw [hc.instances] at hplaced'
      cases hplaced'
      exact hmodules
  unfold generateTask at he
  rw [hplan] at he
  simp only at he
  split at he
  · cases he
  · rename_i w d hw
    cases he
    have hsupplied : Plan.Supplied ⟨o, p, parts, t, cs⟩ := module?_placements hcs
    exact ⟨w, rfl, hfit.isGraph_eq_false (hsupplied.grounds_build _ _ _ hw)⟩

/-- A generation that goes on from `made` fails for no reason of the graph, and leaves the modules
of the generated tasks at hand. -/
theorem generateTasks_sound (hd : p.Decoded) (ha : p.Accepted) {ts : List Task}
    (hfirst : p.ChildrenFirst (made ++ ts)) (h : Parts.Stocked p made parts) :
    (∀ e, (generateTasks o p parts ts).result = .error e →
      ∃ t ∈ ts, ∃ w, e = .inTask t.name w ∧ w.isGraph = false) ∧
    ∀ ms, (generateTasks o p parts ts).result = .ok ms →
      Parts.Stocked p (made ++ ts) (generateTasks o p parts ts).parts := by
  induction ts generalizing made parts with
  | nil =>
    refine ⟨fun e he => ?_, fun ms _ => ?_⟩
    · cases he
    · rw [List.append_nil]
      exact h
  | cons t ts ih =>
    have hmem : t ∈ made ++ t :: ts := by simp
    have hstep {e : ComposeError} (he : (generateTask o p parts t).2 = .error e) :=
      generateTask_sound hd ha (Program.mem_of_task? (hfirst.known t hmem))
        (hfirst.composite t hmem) h (hfirst.below made t ts rfl) he
    unfold generateTasks
    rcases hg : generateTask o p parts t with ⟨log, e | m⟩
    · refine ⟨fun e' he' => ?_, fun ms hms => ?_⟩
      · cases he'
        exact ⟨t, List.mem_cons_self, hstep (by rw [hg])⟩
      · cases hms
    · obtain ⟨herr, hok⟩ := ih (by simpa using hfirst) (h.attach (t := t) m)
      refine ⟨fun e he => ?_, fun ms hms => ?_⟩
      · cases hr : (generateTasks o p (parts.attach t.name m) ts).result with
        | error e' =>
          simp only [hr] at he
          cases he
          obtain ⟨u, hu, hw⟩ := herr e hr
          exact ⟨u, List.mem_cons_of_mem _ hu, hw⟩
        | ok ms =>
          simp only [hr] at he
          cases he
      · cases hr : (generateTasks o p (parts.attach t.name m) ts).result with
        | error e' =>
          simp only [hr] at hms
          cases hms
        | ok ms' => simpa using hok ms' hr

end

/-! ### Loaded programs -/

theorem decoded_of_loadProgram {tree : FileTree} {file : String} {p : Program}
    (h : loadProgram tree file = .ok p) : p.Decoded := by
  unfold loadProgram at h
  split at h
  · cases h
  split at h
  · cases h
  · rename_i p' hparse
    cases h
    exact Program.decoded_of_parse hparse

/-- A loaded program was decoded, and the modules of its leaf tasks are at hand. -/
theorem load_stocked {tree : FileTree} {file dir : String} {log : List LogEntry} {b : Bundle}
    (h : load tree file dir = (log, .ok b)) (hdir : dir ≠ "") :
    b.program.Decoded ∧ Parts.Stocked b.program [] b.parts := by
  obtain ⟨hprogram, ⟨rfl, -, -⟩ | ⟨-, ms, -, hparts, hleaves⟩⟩ := load_ok h
  · cases hdir rfl
  refine ⟨decoded_of_loadProgram hprogram, fun n t ht hmade => ?_⟩
  have hleaf : t.isComposite = false := by
    rw [← Bool.not_eq_true]
    exact fun hc => by simpa using hmade hc
  by_contra hnone
  have hmissing : t.name ∈ leavesWithoutModule b.program b.parts := by
    refine List.mem_map.2 ⟨t, List.mem_filter.2 ⟨Program.mem_tasks.2 (Program.mem_of_task? ht), ?_⟩,
      rfl⟩
    rw [Program.name_of_task? ht]
    simpa [hleaf] using hnone
  rw [hleaves] at hmissing
  cases hmissing

/-- What the graph of an accepted program guarantees for a task of the order when its turn comes:
`before` are the tasks that were generated already. -/
structure Program.Ready (o : Options) (p : Program) (parts : Parts) (before : List Task)
    (t : Task) : Prop where
  modules : ∃ placed, p.instances t = .ok placed ∧
    ∀ ms, (generateTasks o p parts before).result = .ok ms →
      ∀ i ∈ placed, ((generateTasks o p parts before).parts.module? i.task.name).isSome = true
  sides : ∀ f ∈ t.fifoTable, ∀ d, f.checkSides d = .ok () d
  endpoints : ∀ f ∈ t.fifoTable, ∀ e, f.producer = some e ∨ f.consumer = some e →
    ∃ r, p.resolve t f.name (some e) = .ok r

/-- A loaded program that is accepted has an order of composition, every task in it is ready when
its turn comes, and whatever makes a generation fail lies in a module and is no category. -/
theorem accepted_generates {tree : FileTree} {file dir : String} {log : List LogEntry} {b : Bundle}
    (hload : load tree file dir = (log, .ok b)) (hdir : dir ≠ "")
    (hcheck : Program.check (some b.program) = .ok ()) (o : Options) :
    ∃ order, b.program.compositeOrder = .ok order ∧
      (∀ before t after, order = before ++ t :: after → b.program.Ready o b.parts before t) ∧
      ∀ e, (generate o b.program b.parts).result = .error e →
        (∃ t ∈ order, ∃ w, e = .inTask t.name w ∧ w.isGraph = false) ∧
          e.kind ≠ .unsupportedCategory := by
  obtain ⟨hd, hstock⟩ := load_stocked hload hdir
  have ha := Program.accepted_of_check hcheck
  obtain ⟨order, horder⟩ := ha.ordered
  have hfirst := Program.compositeOrder_childrenFirst horder
  refine ⟨order, horder, fun before t after hsplit => ?_, fun e he => ?_⟩
  · have hmem : t ∈ order := by simp [hsplit]
    obtain ⟨placed, hc⟩ := ha.composed t (Program.mem_of_task? (hfirst.known t hmem))
      (hfirst.composite t hmem)
    refine ⟨⟨placed, hc.instances, fun ms hms i hi => ?_⟩, fun f hf => (hc.fifos f hf).checkSides,
      fun f hf => (hc.fifos f hf).resolves⟩
    have hbefore : b.program.ChildrenFirst ([] ++ before) := (hsplit ▸ hfirst).left
    have hmade := (generateTasks_sound hd ha hbefore hstock).2 ms hms
    exact hmade.module_of_instance (hfirst.below before t after hsplit) hc.instances hi
  · have hall : b.program.ChildrenFirst ([] ++ order) := hfirst
    have herr := (generateTasks_sound (o := o) hd ha hall hstock).1
    unfold generate at he
    rw [horder] at he
    simp only at he
    cases hr : (generateTasks o b.program b.parts order).result with
    | ok ms =>
      simp only [hr] at he
      cases he
    | error e' =>
      simp only [hr] at he
      cases he
      obtain ⟨t, ht, w, rfl, hw⟩ := herr e hr
      exact ⟨⟨t, ht, w, rfl, hw⟩, WiringError.kind_ne_unsupported hw⟩

/-- The files of a program with one source, of the leaf task `A`. -/
def leafFiles (text source : String) : FileTree :=
  { files := [("program.json", text), ("rtl/A.v", source)] }

section
variable {text source : String}

theorem scan_leafFiles : (leafFiles text source).scan "rtl" ".v" = ["A.v"] := by
  have hentries : (leafFiles text source).entries "rtl" = [("A.v", false)] := by
    -- the texts do not matter
    have hany : (leafFiles text source).entries "rtl" = (leafFiles "" "").entries "rtl" := rfl
    have hplaces : ((leafFiles "" "").places.filter fun p =>
        p != "rtl" && (leafFiles "" "").key (Path.parent p) == "rtl") = ["rtl/A.v"] := by
      decide
    rw [hany, FileTree.entries, hplaces]
    rfl
  have hj : Path.join "rtl" "." = "rtl" := by decide
  have hk : (leafFiles text source).key "rtl" = "rtl" := by with_unfolding_all rfl
  have hc : Path.clean "rtl" = "rtl" := by decide
  have hb : Text.beginsWith "rtl" "rtl" = true := by decide
  have hs : Text.endsWith "A.v" ".v" = true := by decide
  have hjl : Path.join "." "A.v" = "A.v" := by decide
  simp [FileTree.scan, FileTree.scanFrom, hentries, hj, hk, hc, hb, hs, hjl, Text.sorted,
    Text.sortedBy, Text.insertBy]

/-- The modules of a source of which a program can be loaded. -/
def leafModules? (p : Program) (source : String) : Option (List Module) := do
  let ms ← (Source.parse source).toOption
  if (collectModules "A.v" [] ms).isOk && (leavesWithoutModule p (attachModules p ms)).isEmpty then
    return ms
  else none

theorem leafModules?_some {p : Program} {ms : List Module} (h : leafModules? p source = some ms) :
    Source.parse source = .ok ms ∧ collectModules "A.v" [] ms = .ok ms ∧
      leavesWithoutModule p (attachModules p ms) = [] := by
  obtain ⟨ms', hms, h⟩ := Option.bind_eq_some_iff.1 h
  split at h
  · rename_i hloads
    cases h
    rw [Bool.and_eq_true] at hloads
    refine ⟨Source.toOption_eq_some.1 hms, ?_, List.isEmpty_iff.1 hloads.2⟩
    cases hc : collectModules "A.v" [] ms with
    | error e =>
      rw [hc] at hloads
      cases hloads.1
    | ok all => rw [(collectModules_ok hc (by simp)).1, List.nil_append]
  · cases h

/-- A program whose only leaf task is `A` is loaded with the modules of the source of `A`. -/
theorem load_leaf {p : Program} {ms : List Module} (htext : Description.parse .double text = .ok p)
    (h : leafModules? p source = some ms) : ∃ log,
    load (leafFiles text source) "program.json" "rtl" =
      (log, .ok ⟨p, "rtl", [⟨"A.v", source, ms⟩], attachModules p ms⟩) := by
  obtain ⟨hsource, hcollect, hleaves⟩ := leafModules?_some h
  have hread : (leafFiles text source).read (Path.join "rtl" "A.v") = .ok source := by
    with_unfolding_all rfl
  have hprogram : loadProgram (leafFiles text source) "program.json" = .ok p := by
    have hdesc : (leafFiles text source).read "program.json" = .ok text := by with_unfolding_all rfl
    rw [loadProgram, hdesc]
    simp [htext]
  have hsources : readSources (leafFiles text source) "rtl" = .ok [⟨"A.v", source, ms⟩] := by
    rw [readSources, sourceSuffix, scan_leafFiles, List.mapM_cons, readSource, hread]
    simp [hsource, bind, Except.bind, pure, Except.pure]
  simp [load, hprogram, hsources, assemble, collectSources, hcollect, hleaves]

end

/-- The source of `A`, which writes and reads a stream. -/
def streamLeaf : String :=
  "module A (input ap_clk, ap_rst_n, ap_start, output ap_done, ap_idle, ap_ready,\n" ++
  "  output [7:0] o_din, output o_write, input o_full_n,\n" ++
  "  input [7:0] i_dout, input i_empty_n, output i_read);\nendmodule\n"

/-- A top task that places `Mid`, in which a stream goes from one instance of `A` to another. -/
def layeredText : String :=
  "\x7b\"tasks\":\x7b\"A\":\x7b\x7d,\"Mid\":\x7b" ++
  "\"fifos\":\x7b\"q\":\x7b\"consumed_by\":[\"A\",1],\"depth\":2," ++
  "\"produced_by\":[\"A\",0]\x7d\x7d,\"level\":1,\"tasks\":\x7b\"A\":[" ++
  "\x7b\"args\":\x7b\"q\":\x7b\"cat\":\"ostream\",\"port\":\"o\"\x7d\x7d\x7d," ++
  "\x7b\"args\":\x7b\"q\":\x7b\"cat\":\"istream\",\"port\":\"i\"\x7d\x7d\x7d" ++
  "]\x7d\x7d,\"Top\":\x7b\"level\":1,\"tasks\":\x7b\"Mid\":[\x7b\x7d]\x7d\x7d\x7d,\"top\":\"Top\"\x7d"

def layeredProgram : Program where
  top := "Top"
  taskTable := [{ name := "A", level := .leaf },
    { name := "Mid", level := .composite
      childTable := [⟨"A", [⟨0, [⟨"q", .ostream, "o"⟩]⟩, ⟨0, [⟨"q", .istream, "i"⟩]⟩]⟩]
      fifoTable := [⟨"q", 2, some ⟨"A", 0⟩, some ⟨"A", 1⟩⟩] },
    { name := "Top", level := .composite, childTable := [⟨"Mid", [⟨0, []⟩]⟩] }]

theorem parse_layeredText : Description.parse .double layeredText = .ok layeredProgram :=
  Description.parse_of_ascii (by decide +kernel) (by decide +kernel)

theorem check_layered : Program.check (some layeredProgram) = .ok () := by
  with_unfolding_all rfl

/-- The modules of a source, and the design that is generated with them. -/
def layeredRun? (source : String) : Option (List Module × Design) := do
  let ms ← leafModules? layeredProgram source
  let design ← (generate {} layeredProgram (attachModules layeredProgram ms)).result.toOption
  return (ms, design)

theorem layeredRun?_some {source : String} {ms : List Module} {design : Design}
    (h : layeredRun? source = some (ms, design)) : leafModules? layeredProgram source = some ms ∧
      (generate {} layeredProgram (attachModules layeredProgram ms)).result = .ok design := by
  obtain ⟨ms', hms, h⟩ := Option.bind_eq_some_iff.1 h
  obtain ⟨design', hgen, h⟩ := Option.bind_eq_some_iff.1 h
  cases h
  exact ⟨hms, Source.toOption_eq_some.1 hgen⟩

/-- In the layered program each composite is ready when its turn comes, and is generated. -/
theorem accepted_generates_layered : ∃ log b order design,
    load (leafFiles layeredText streamLeaf) "program.json" "rtl" = (log, .ok b) ∧
    Program.check (some b.program) = .ok () ∧ b.program.compositeOrder = .ok order ∧
    order.map Task.name = ["Mid", "Top"] ∧
    (∀ before t after, order = before ++ t :: after → b.program.Ready {} b.parts before t) ∧
    (generate {} b.program b.parts).result = .ok design ∧
    design.modules.map Module.name = ["Mid", "Top"] := by
  have hall : (layeredRun? streamLeaf).any (fun (_, design) =>
      decide (design.modules.map Module.name = ["Mid", "Top"])) = true := by decide +kernel
  obtain ⟨⟨ms, design⟩, hrun, hnames⟩ := (Option.any_eq_true _ _).1 hall
  obtain ⟨hms, hgen⟩ := layeredRun?_some hrun
  obtain ⟨log, hload⟩ := load_leaf parse_layeredText hms
  obtain ⟨order, horder, hready, -⟩ := accepted_generates hload (by decide) check_layered {}
  have hordered : (layeredProgram.compositeOrder).toOption.map (·.map Task.name) =
      some ["Mid", "Top"] := by with_unfolding_all rfl
  rw [show layeredProgram.compositeOrder = .ok order from horder] at hordered
  exact ⟨log, _, order, design, hload, check_layered, horder, Option.some.inj hordered, hready,
    hgen, of_decide_eq_true hnames⟩

end TaskLoom
