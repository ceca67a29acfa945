import TaskLoom.Graph.Check
import TaskLoom.Primitive
import TaskLoom.Proofs.Composite.Bindings
import TaskLoom.Proofs.Hdl.RoundTrip
import TaskLoom.Proofs.Hdl.Splicing
import TaskLoom.Proofs.Output.Collected
import TaskLoom.Proofs.Output.Sources

/-!
# What the files of a design define

A module gets into the output in one of three ways: it is generated, it is kept in a copied source,
or it is a primitive.  `Bundle.definedNames`: the names of all of them.  Every cell of a generated
module finds its module there (`cell_mem_definedNames`), and the names are different unless a copied
source defines a primitive in use (`nodup_definedNames_iff`).

Main statement: so it is with the names that are read from the written files (`defined_once_iff`).
-/

namespace TaskLoom

open Source
open Text (bytes)

/-- The names of the modules that a text defines; none if it cannot be read. -/
def Source.moduleNames (text : String) : List String :=
  ((parse text).toOption.getD []).map Module.name

theorem Source.moduleNames_of_parse {text : String} {ms : List Module} (h : parse text = .ok ms) :
    moduleNames text = ms.map Module.name := by
  simp [moduleNames, h, Except.toOption]

/-- The names of the modules that the file at a path defines. -/
def FileTree.modulesAt (t : FileTree) (path : String) : List String :=
  ((t.textAt? path).map Source.moduleNames).getD []

/-- The names of the modules of a design, of those that the copied sources keep, and of the
primitives in use. -/
def Bundle.definedNames (b : Bundle) (g : Design) : List String :=
  g.modules.map Module.name ++
    (b.passThrough.flatMap (·.kept (g.modules.map Module.name))).map Module.name ++
      (Writing.usedPrimitives g).map Prod.fst

theorem mem_usedPrimitives {g : Design} {m : Module} {cell : Cell} {file : String}
    (hm : m ∈ g.modules) (hcell : cell ∈ m.cells)
    (hprimitive : (cell.module, file) ∈ Writing.primitives) :
    cell.module ∈ (Writing.usedPrimitives g).map Prod.fst := by
  refine List.mem_map.2 ⟨_, List.mem_filter.2 ⟨hprimitive, ?_⟩, rfl⟩
  exact List.any_eq_true.2 ⟨m, hm, List.any_eq_true.2 ⟨cell, hcell, beq_self_eq_true _⟩⟩

section
variable {o : Options} {b : Bundle} {design : Design}

/-- A child is either generated, or it is a leaf whose module was loaded. -/
theorem Plan.Made.child {p : Plan} {m : Module} {order : List Task}
    (hgen : (generate o b.program b.parts).result = .ok design)
    (horder : b.program.compositeOrder = .ok order) (hprogram : p.program = b.program)
    (htask : p.task ∈ order) (hmade : p.Made (generate o b.program b.parts).parts m)
    {c : Placement} (hc : c ∈ p.children) :
    c.module ∈ design.modules ∨ ∃ t, b.program.task? t.name = some t ∧ t.isComposite = false ∧
      b.parts.module? t.name = some c.module := by
  have hfirst := Program.compositeOrder_childrenFirst horder
  have hplaced := hprogram ▸ hmade.placed
  have hmodule := hmade.children c hc
  obtain ⟨before, after, hsplit⟩ := List.append_of_mem htask
  obtain ⟨t, ht, hbefore⟩ := hfirst.below before p.task after hsplit _
    (Program.name_mem_childNames hplaced (List.mem_map_of_mem hc))
  have hname := Program.name_of_task? ht
  rw [← hname] at ht hmodule
  cases hcomposite : t.isComposite with
  | true =>
    obtain ⟨order', horder', hgenerated, -⟩ := made_of_generate hgen
    cases horder.symm.trans horder'
    have hmem : t ∈ order := by
      rw [hsplit]
      exact List.mem_append_left _ (hbefore hcomposite)
    obtain ⟨m', hm', q, -, -, rfl, hq⟩ := hgenerated t hmem
    cases hmodule.symm.trans hq.kept
    exact .inl hm'
  | false =>
    refine .inr ⟨t, ht, hcomposite, ?_⟩
    rw [← (generate_frame b.parts).2 t.name fun u hu => by cases ht.symm.trans hu; exact hcomposite]
    exact hmodule

/-- The module of every cell is generated, kept in a source, or a primitive in use. -/
theorem cell_mem_definedNames (hloaded : b.Loaded)
    (hgen : (generate o b.program b.parts).result = .ok design) :
    ∀ m ∈ design.modules, ∀ cell ∈ m.cells, cell.module ∈ b.definedNames design := by
  intro m hm cell hcell
  obtain ⟨order, horder, -, hdesign⟩ := made_of_generate hgen
  obtain ⟨p, rfl, hprogram, htask, hmade⟩ := hdesign m hm
  obtain ⟨d, hd, rfl⟩ := hmade.built
  obtain ⟨iface, buffers, sites, adapters, h⟩ := Plan.assembled_of_build hd
  rcases h.mem_cells.1 hcell with ⟨x, -, rfl⟩ | ⟨s, hs, rfl⟩ | ⟨x, -, rfl⟩
  · exact List.mem_append_right _ (mem_usedPrimitives hm hcell (.tail _ (.head _)))
  · have hchild : s.child ∈ p.children := h.children ▸ List.mem_map_of_mem hs
    by_cases hnew : s.cell.module ∈ design.modules.map Module.name
    · exact List.mem_append_left _ (List.mem_append_left _ hnew)
    · rcases hmade.child hgen horder hprogram htask hchild with hin | ⟨t, ht, hleaf, hmodule⟩
      · exact absurd (List.mem_map_of_mem hin) hnew
      · -- the source of a leaf is copied, and the module is not cut out of it
        obtain ⟨hname, -⟩ := hloaded.attached _ _ hmodule
        rw [← hname] at ht hmodule
        exact List.mem_append_left _ (List.mem_append_right _
          (List.mem_map_of_mem (hloaded.module_kept ht hleaf hmodule hnew)))
  · exact List.mem_append_right _ (mem_usedPrimitives hm hcell (.head _))

end

/-! ### No name is defined twice -/

theorem primitive_file {p : String × String} (hp : p ∈ Writing.primitives) :
    p.2 = p.1 ++ sourceSuffix := by
  simp only [Writing.primitives, List.mem_cons, List.not_mem_nil, or_false] at hp
  rcases hp with rfl | rfl
  · decide
  · decide

/-- The files have different names, so the generated modules do, and none of them is called like a
primitive in use.  Then the names are different exactly if no copied source defines such a
module. -/
theorem nodup_definedNames_iff {b : Bundle} {g : Design} (hloaded : b.Loaded)
    (hnames : (g.fileNames b.passThrough).Nodup) :
    (b.definedNames g).Nodup ↔
      ∀ s ∈ b.passThrough, ∀ m ∈ s.modules, m.name ∉ (Writing.usedPrimitives g).map Prod.fst := by
  rw [Design.fileNames, List.append_assoc, List.nodup_append] at hnames
  obtain ⟨hgenerated, -, hclaimed⟩ := hnames
  have hgenerated : (g.modules.map Module.name).Nodup := by
    refine List.Nodup.of_map (· ++ sourceSuffix) ?_
    rwa [List.map_map]
  have hused : ((Writing.usedPrimitives g).map Prod.fst).Nodup := by
    rw [List.nodup_iff_pairwise_ne, List.pairwise_map]
    refine (usedPrimitives_sorted g).imp fun {p q} (hlt : p.1 < q.1) hpq => ?_
    rw [hpq] at hlt
    exact String.lt_irrefl _ hlt
  have hfresh : ∀ m ∈ g.modules, m.name ∉ (Writing.usedPrimitives g).map Prod.fst := by
    intro m hm hmem
    obtain ⟨p, hp, hpm⟩ := List.mem_map.1 hmem
    refine hclaimed _ (List.mem_map_of_mem hm) p.2
      (List.mem_append_right _ (List.mem_map_of_mem hp)) ?_
    rw [primitive_file (List.mem_of_mem_filter hp), hpm]
  constructor
  · intro h s hs m hm hmem
    by_cases hin : m.name ∈ g.modules.map Module.name
    · obtain ⟨m', hm', hname⟩ := List.mem_map.1 hin
      exact hfresh m' hm' (hname ▸ hmem)
    · have hkept : m ∈ b.passThrough.flatMap (·.kept (g.modules.map Module.name)) :=
        List.mem_flatMap.2 ⟨s, hs, SourceFile.mem_kept.2 ⟨hm, hin⟩⟩
      refine (List.nodup_append.1 h).2.2 m.name ?_ m.name hmem rfl
      exact List.mem_append_right _ (List.mem_map_of_mem hkept)
  · intro h
    refine List.nodup_append.2 ⟨List.nodup_append.2 ⟨hgenerated, hloaded.nodup_kept _, ?_⟩, hused, ?_⟩
    · rintro _ hn _ hk rfl
      obtain ⟨m, hm, rfl⟩ := List.mem_map.1 hk
      obtain ⟨s, -, hm⟩ := List.mem_flatMap.1 hm
      exact (SourceFile.mem_kept.1 hm).2 hn
    · rintro _ hn _ hp rfl
      rcases List.mem_append.1 hn with hn | hn
      · obtain ⟨m, hm, rfl⟩ := List.mem_map.1 hn
        exact hfresh m hm hp
      · obtain ⟨m, hm, rfl⟩ := List.mem_map.1 hn
        obtain ⟨s, hs, hm⟩ := List.mem_flatMap.1 hm
        exact h s hs m (SourceFile.mem_kept.1 hm).1 hp

/-! ### Reading the files -/

section
variable {o : Options} {b : Bundle} {design : Design}

theorem moduleNames_generated (hgen : (generate o b.program b.parts).result = .ok design)
    {m : Module} (hm : m ∈ design.modules) (hreadable : m.Readable)
    (hinert : Inert (bytes (insideText m))) : moduleNames m.render = [m.name] := by
  obtain ⟨order, -, -, hdesign⟩ := made_of_generate hgen
  obtain ⟨p, -, -, -, hmade⟩ := hdesign m hm
  obtain ⟨d, hd, rfl⟩ := hmade.built
  obtain ⟨items, hitems, -⟩ := p.layout_build _ _ _ hd
  have hbuilt : d.module.Built p.task.name := Module.Built.empty.addAll hitems
  exact moduleNames_of_parse (parse_framed hbuilt.verbatim hreadable hbuilt.nodup hinert)

theorem moduleNames_copied {generated : List String} {s : SourceFile}
    (hparse : Source.parse s.text = .ok s.modules)
    (htidy : Writing.isReplaced generated s = true → Source.isTidy s.text = true) :
    moduleNames (s.copied generated).text = (s.kept generated).map Module.name := by
  by_cases hreplaced : Writing.isReplaced generated s = true
  · exact moduleNames_of_parse (parse_keptText hparse (htidy hreplaced) generated)
  · rw [SourceFile.copied, Writing.keptText, if_neg hreplaced, SourceFile.kept,
      filter_of_not_isReplaced hreplaced]
    exact moduleNames_of_parse hparse

theorem moduleNames_primitives {assets : Assets} {t : FileTree} {ps : List (String × String)}
    {fs : List OutputFile} (hps : List.Forall₂ (Writing.IsPrimitive assets t) ps fs)
    (h : ∀ p ∈ ps, ∀ text, assets.text? t p.2 = some text → moduleNames text = [p.1]) :
    fs.flatMap (moduleNames ·.text) = ps.map Prod.fst := by
  induction hps with
  | nil => rfl
  | cons hp _ ih =>
    obtain ⟨hhead, hrest⟩ := List.forall_mem_cons.1 h
    rw [List.flatMap_cons, List.map_cons, hhead _ hp.2, ih hrest, List.singleton_append]

/-- Where the paths lead to different places, the files that were written define what the design,
the copied sources and the primitives define. -/
theorem modulesAt_written {assets : Assets} {lint : Option LintOutcome} {out : String} {d d' : Desk}
    {w : Written} (hloaded : b.Loaded)
    (hgen : (generate o b.program b.parts).result = .ok design)
    (hwrite : writeDesign (some design) b.passThrough out assets lint d = .ok w d')
    (hassets : ∀ p ∈ Writing.primitives, ∀ text, assets.text? d.files p.2 = some text →
      moduleNames text = [p.1])
    (hread : ∀ m ∈ design.modules, m.Readable ∧ Inert (bytes (insideText m)))
    (htidy : ∀ s ∈ b.passThrough,
      Writing.isReplaced (design.modules.map Module.name) s = true → isTidy s.text = true)
    (hplaces : (w.paths.map d'.files.locate).Nodup) :
    w.paths.flatMap d'.files.modulesAt = b.definedNames design := by
  obtain ⟨files, d₁, hcollect, hpaths, htexts⟩ := writeDesign_ok hwrite
  obtain ⟨-, -, ps, hps, hfiles⟩ := Writing.collect_ok hcollect
  have hstored : w.paths.flatMap d'.files.modulesAt = files.flatMap (moduleNames ·.text) := by
    rw [hpaths, List.flatMap_map]
    refine List.flatMap_congr fun f hf => ?_
    rw [FileTree.modulesAt, htexts hplaces f hf]
    rfl
  have hgenerated : (design.modules.map Writing.moduleFile).flatMap (moduleNames ·.text) =
      design.modules.map Module.name := by
    rw [List.flatMap_map, ← List.flatMap_pure_eq_map]
    exact List.flatMap_congr fun m hm =>
      moduleNames_generated hgen hm (hread m hm).1 (hread m hm).2
  have hcopied : (b.passThrough.map (·.copied (design.modules.map Module.name))).flatMap
      (moduleNames ·.text) =
        (b.passThrough.flatMap (·.kept (design.modules.map Module.name))).map Module.name := by
    rw [List.flatMap_map, List.map_flatMap]
    exact List.flatMap_congr fun s hs =>
      moduleNames_copied (hloaded.parsed_passThrough s hs) (htidy s hs)
  have hprimitives : ps.flatMap (moduleNames ·.text) =
      (Writing.usedPrimitives design).map Prod.fst :=
    moduleNames_primitives hps fun p hp => hassets p (List.mem_of_mem_filter hp)
  rw [hstored, hfiles, List.flatMap_append, List.flatMap_append, hgenerated, hcopied, hprimitives]
  rfl

/-- In what was written for a loaded program, every cell of a generated module finds its module, and
no module is defined twice, exactly if no copied source defines a primitive in use.

The definitions are read back from the files.  So the assets must define their primitives, the
generated modules must be readable, the sources that lose modules must close their strings, and the
files must lie in different places. -/
theorem defined_once_iff {tree : FileTree} {file dir out : String} {log : List LogEntry}
    {assets : Assets} {lint : Option LintOutcome} {d d' : Desk} {w : Written}
    (hload : load tree file dir = (log, .ok b))
    (hgen : (generate o b.program b.parts).result = .ok design)
    (hwrite : writeDesign (some design) b.passThrough out assets lint d = .ok w d')
    (hassets : ∀ p ∈ Writing.primitives, ∀ text, assets.text? d.files p.2 = some text →
      moduleNames text = [p.1])
    (hread : ∀ m ∈ design.modules, m.Readable ∧ Inert (bytes (insideText m)))
    (htidy : ∀ s ∈ b.passThrough,
      Writing.isReplaced (design.modules.map Module.name) s = true → isTidy s.text = true)
    (hplaces : (w.paths.map d'.files.locate).Nodup) :
    (∀ m ∈ design.modules, ∀ cell ∈ m.cells,
        ∃ path ∈ w.paths, cell.module ∈ d'.files.modulesAt path) ∧
      ((w.paths.flatMap d'.files.modulesAt).Nodup ↔ ∀ s ∈ b.passThrough, ∀ m ∈ s.modules,
        m.name ∉ (Writing.usedPrimitives design).map Prod.fst) := by
  have hloaded := load_loaded hload
  have hall := modulesAt_written hloaded hgen hwrite hassets hread htidy hplaces
  constructor
  · intro m hm cell hcell
    have hmem := cell_mem_definedNames hloaded hgen m hm cell hcell
    rw [← hall] at hmem
    exact List.mem_flatMap.1 hmem
  · rw [hall]
    obtain ⟨files, d₁, hcollect, -, -⟩ := writeDesign_ok hwrite
    have hnames := Writing.collect_prepares design b.passThrough assets d
    rw [hcollect] at hnames
    exact nodup_definedNames_iff hloaded (hnames.2 ▸ (Writing.collect_ok hcollect).2.1)

end

/-- A top task that places `A` twice, with a stream from the first instance to the second one. -/
def streamText : String :=
  "\x7b\"tasks\":\x7b\"A\":\x7b\x7d,\"Top\":\x7b" ++
  "\"fifos\":\x7b\"q\":\x7b\"consumed_by\":[\"A\",1],\"depth\":2,\"produced_by\":[\"A\",0]\x7d\x7d," ++
  "\"level\":1,\"tasks\":\x7b\"A\":[" ++
  "\x7b\"args\":\x7b\"q\":\x7b\"cat\":\"ostream\",\"port\":\"o\"\x7d\x7d\x7d," ++
  "\x7b\"args\":\x7b\"q\":\x7b\"cat\":\"istream\",\"port\":\"i\"\x7d\x7d\x7d" ++
  "]\x7d\x7d\x7d,\"top\":\"Top\"\x7d"

def streamProgram : Program where
  top := "Top"
  taskTable := [{ name := "A", level := .leaf },
    { name := "Top", level := .composite
      childTable := [⟨"A", [⟨0, [⟨"q", .ostream, "o"⟩]⟩, ⟨0, [⟨"q", .istream, "i"⟩]⟩]⟩]
      fifoTable := [⟨"q", 2, some ⟨"A", 0⟩, some ⟨"A", 1⟩⟩] }]

/-- The source of `A`, with other modules behind it. -/
def streamSource (others : String) : String := streamLeaf ++ others

/-- A skeleton of the top task, and a module that belongs to no task. -/
def streamOthers : String :=
  "module Top (input ap_clk, ap_rst_n, ap_start, output ap_done, ap_idle, ap_ready);\n" ++
  "endmodule\nmodule B;\nendmodule\n"

def fifoSource : String := "module fifo;\nendmodule\n"

def streamAssets : List (String × String) :=
  [("async_mmap.v", "module async_mmap;\nendmodule\n"), ("fifo.v", fifoSource)]

theorem parse_streamText : Description.parse .double streamText = .ok streamProgram :=
  Description.parse_of_ascii (by decide +kernel) (by decide +kernel)

theorem check_stream : Program.check (some streamProgram) = .ok () := by
  with_unfolding_all rfl

/-- The bundle of the program with the modules of its source. -/
def streamBundle (others : String) (ms : List Module) : Bundle :=
  ⟨streamProgram, "rtl", [⟨"A.v", streamSource others, ms⟩], attachModules streamProgram ms⟩

/-- The modules of the source, and the design that is written. -/
def streamRun? (others : String) : Option (List Module × Design × Written × Desk) := do
  let ms ← leafModules? streamProgram (streamSource others)
  let b := streamBundle others ms
  let design ← (generate {} b.program b.parts).result.toOption
  match writeDesign (some design) b.passThrough "out" (.texts streamAssets) none ⟨{}, []⟩ with
  | .ok w d => return (ms, design, w, d)
  | .error _ _ => none

theorem streamRun?_some {others : String} {ms : List Module} {design : Design} {w : Written}
    {d : Desk} (h : streamRun? others = some (ms, design, w, d)) :
    let b := streamBundle others ms
    (∃ log, load (leafFiles streamText (streamSource others)) "program.json" "rtl" = (log, .ok b)) ∧
    (generate {} b.program b.parts).result = .ok design ∧
    writeDesign (some design) b.passThrough "out" (.texts streamAssets) none ⟨{}, []⟩ = .ok w d := by
  obtain ⟨ms', hms, h⟩ := Option.bind_eq_some_iff.1 h
  obtain ⟨design', hgen, h⟩ := Option.bind_eq_some_iff.1 h
  split at h
  · rename_i w' d' hwrite
    cases h
    exact ⟨load_leaf parse_streamText hms, toOption_eq_some.1 hgen, hwrite⟩
  · cases h

theorem moduleNames_streamAssets : ∀ p ∈ Writing.primitives, ∀ text,
    (Assets.texts streamAssets).text? {} p.2 = some text → moduleNames text = [p.1] := by
  have hall : Writing.primitives.all (fun p => ((Assets.texts streamAssets).text? {} p.2).all
      fun text => moduleNames text == [p.1]) = true := by
    decide +kernel
  intro p hp text htext
  have hnames := List.all_eq_true.1 hall p hp
  rw [htext] at hnames
  exact beq_iff_eq.1 hnames

/-- Beside other modules, the primitive of the stream is defined once. -/
theorem defined_once_beside : ∃ log b design w d,
    load (leafFiles streamText (streamSource streamOthers)) "program.json" "rtl" = (log, .ok b) ∧
    (generate {} b.program b.parts).result = .ok design ∧
    writeDesign (some design) b.passThrough "out" (.texts streamAssets) none ⟨{}, []⟩ = .ok w d ∧
    (∀ m ∈ design.modules, ∀ cell ∈ m.cells,
      ∃ path ∈ w.paths, cell.module ∈ d.files.modulesAt path) ∧
    (w.paths.flatMap d.files.modulesAt).Nodup := by
  have hall : (streamRun? streamOthers).any (fun (ms, design, w, d) =>
      decide ((∀ m ∈ design.modules, m.Plain ∧ m.Legible) ∧
        (∀ s ∈ (streamBundle streamOthers ms).passThrough,
          Writing.isReplaced (design.modules.map Module.name) s = true → isTidy s.text = true) ∧
        (w.paths.map d.files.locate).Nodup ∧
        ∀ s ∈ (streamBundle streamOthers ms).passThrough, ∀ m ∈ s.modules,
          m.name ∉ (Writing.usedPrimitives design).map Prod.fst)) = true := by
    decide +kernel
  obtain ⟨⟨ms, design, w, d⟩, hrun, hall⟩ := (Option.any_eq_true _ _).1 hall
  obtain ⟨hplain, htidy, hplaces, hfree⟩ := of_decide_eq_true hall
  obtain ⟨⟨log, hload⟩, hgen, hwrite⟩ := streamRun?_some hrun
  have hread : ∀ m ∈ design.modules, m.Readable ∧ Inert (bytes (insideText m)) := by
    intro m hm
    obtain ⟨hp, hl⟩ := hplain m hm
    exact ⟨hp.readable hl, inert_inside hp hl⟩
  obtain ⟨hcells, honce⟩ := defined_once_iff hload hgen hwrite moduleNames_streamAssets hread htidy
    hplaces
  exact ⟨log, _, design, w, d, hload, hgen, hwrite, hcells, honce.2 hfree⟩

/-- A source that defines the primitive of the stream is written as it is, and so is the
primitive. -/
theorem primitive_defined_twice : ∃ log b design w d,
    load (leafFiles streamText (streamSource fifoSource)) "program.json" "rtl" = (log, .ok b) ∧
    Program.check (some b.program) = .ok () ∧
    (generate {} b.program b.parts).result = .ok design ∧
    writeDesign (some design) b.passThrough "out" (.texts streamAssets) none ⟨{}, []⟩ = .ok w d ∧
    ∃ path ∈ w.paths, ∃ path' ∈ w.paths, path ≠ path' ∧
      "fifo" ∈ d.files.modulesAt path ∧ "fifo" ∈ d.files.modulesAt path' := by
  have hall : (streamRun? fifoSource).any (fun (_, _, w, d) =>
      decide ("out/A.v" ∈ w.paths ∧ "out/fifo.v" ∈ w.paths ∧
        "fifo" ∈ d.files.modulesAt "out/A.v" ∧ "fifo" ∈ d.files.modulesAt "out/fifo.v")) = true := by
    decide +kernel
  obtain ⟨⟨ms, design, w, d⟩, hrun, hall⟩ := (Option.any_eq_true _ _).1 hall
  obtain ⟨hcopy, hprimitive, htwice⟩ := of_decide_eq_true hall
  obtain ⟨⟨log, hload⟩, hgen, hwrite⟩ := streamRun?_some hrun
  exact ⟨log, _, design, w, d, hload, check_stream, hgen, hwrite, "out/A.v", hcopy, "out/fifo.v",
    hprimitive, by decide, htwice⟩

end TaskLoom
