import TaskLoom.Proofs.Output.Collected

/-!
# A design is written as a whole or not at all

An error that does not come from the storage leaves the file tree unchanged, and a success changes
files at the listed paths only, each to the text that was written there last (`writeDesign_atomic`).
-/

namespace TaskLoom

/-- The top module's file has the place of the top module. -/
theorem Design.getD_fileNames {g : Design} {top : Nat} {m : Module} (sources : List SourceFile)
    (dir : String) (htop : g.modules[top]? = some m) :
    ((g.fileNames sources).map (Path.join dir)).getD top "" =
      Path.join dir (m.name ++ sourceSuffix) := by
  obtain ⟨hlt, rfl⟩ := List.getElem?_eq_some_iff.1 htop
  have hplace : (g.fileNames sources)[top]? = some (g.modules[top].name ++ sourceSuffix) := by
    rw [fileNames, List.append_assoc, List.getElem?_append_left (by simpa using hlt),
      List.getElem?_map, htop, Option.map_some]
  rw [List.getD_eq_getElem?_getD, List.getElem?_map, hplace, Option.map_some, Option.getD_some]

/-- Without a linter, a run that fails otherwise than in the storage leaves the tree as it was.  A
run that succeeds writes the modules, the copies of the sources and the primitives by name, in this
order, each to a path in the output directory.  No file changes but those that these paths lead to,
and each of these holds the text that was written there last. -/
theorem writeDesign_atomic (design : Option Design) (sources : List SourceFile) (dir : String)
    (assets : Assets) (d : Desk) :
    match writeDesign design sources dir assets none d with
    | .error e d' => e.isStorage = false → d'.files = d.files
    | .ok w d' => ∃ g, design = some g ∧
        w.paths = (g.fileNames sources).map (Path.join dir) ∧
        ((Writing.usedPrimitives g).Pairwise fun p q => p.1 < q.1) ∧
        (∀ m, g.topModule? = some m → w.topPath = Path.join dir (m.name ++ sourceSuffix)) ∧
        (∀ path ∈ w.paths, ∃ c, d'.files.locate path = .ok c ∧ (d'.files.file? c).isSome) ∧
        (∀ c, (∀ path ∈ w.paths, d'.files.locate path ≠ .ok c) →
          d'.files.file? c = d.files.file? c) ∧
        ∃ ps, List.Forall₂ (Writing.IsPrimitive assets d.files) (Writing.usedPrimitives g) ps ∧
          ∀ c, d'.files.file? c = (Writing.lastText d'.files c
            ((g.modules.map Writing.moduleFile ++
              sources.map (·.copied (g.modules.map Module.name)) ++ ps).map
                (Writing.entry dir))).or (d.files.file? c) := by
  cases design with
  | none => exact fun _ => rfl
  | some g =>
    cases htop : g.top with
    | none =>
      simp only [writeDesign, htop]
      exact fun _ => rfl
    | some top =>
      by_cases hdir : (dir == "" || dir == "-") = true
      · simp only [writeDesign, htop, hdir, if_true]
        exact fun _ => rfl
      · simp only [writeDesign, htop, if_neg hdir]
        have hrun := (Writing.collect_prepares g sources assets).bind_stores
          (fun files _ => Writing.writing_stores dir files top) d
        split at hrun
        · rename_i w d' hok
          rw [hok]
          obtain ⟨files, d₁, hcollect, hstored, rfl⟩ := hrun
          have hnames := (Writing.collect_prepares g sources assets).of_ok hcollect
          obtain ⟨-, -, ps, hps, hall⟩ := Writing.collect_ok hcollect
          have hpaths : files.map (Writing.outputPath dir) =
              (g.fileNames sources).map (Path.join dir) := by
            rw [← hnames, List.map_map]
            rfl
          refine ⟨g, rfl, hpaths, usedPrimitives_sorted g, fun m hm => ?_, fun path hpath => ?_,
            fun c hc => hstored.kept fun e he => ?_, ps, hps, hall ▸ hstored.holds⟩
          · rw [Design.topModule?, htop, Option.bind_some] at hm
            rw [hpaths, Design.getD_fileNames sources dir hm]
          · obtain ⟨f, hf, rfl⟩ := List.mem_map.1 hpath
            exact hstored.isSome (e := Writing.entry dir f) (List.mem_map_of_mem hf)
          · obtain ⟨f, hf, rfl⟩ := List.mem_map.1 he
            exact hc (Writing.outputPath dir f) (List.mem_map_of_mem hf)
        · rename_i e d' herror
          rw [herror]
          exact hrun

/-- A top module with a stream buffer. -/
def bufferedTop : Design := ⟨[{ name := "Top", cells := [⟨fifoPrimitive, "q", [], [], []⟩] }], some 0⟩

/-- Without assets the buffer's text is missing, when the module's file was collected already; with
them both files are written. -/
theorem writeDesign_atomic_buffered :
    (∃ d', writeDesign (some bufferedTop) [] "out" .none none ⟨{}, []⟩ =
        .error (.noAssets fifoPrimitive) d' ∧ d'.files = {}) ∧
      ∃ w d', writeDesign (some bufferedTop) [] "out" (.texts [("fifo.v", "")]) none ⟨{}, []⟩ =
        .ok w d' ∧ w.paths = ["out/Top.v", "out/fifo.v"] ∧ w.topPath = "out/Top.v" := by
  refine ⟨⟨_, rfl, writeDesign_atomic (some bufferedTop) [] "out" .none ⟨{}, []⟩ rfl⟩, ?_⟩
  have hrun := writeDesign_atomic (some bufferedTop) [] "out" (.texts [("fifo.v", "")]) ⟨{}, []⟩
  cases hr : writeDesign (some bufferedTop) [] "out" (.texts [("fifo.v", "")]) none ⟨{}, []⟩ with
  | error e d' => cases hr
  | ok w d' =>
    rw [hr] at hrun
    obtain ⟨g, hg, hpaths, -, htop, -⟩ := hrun
    cases hg
    exact ⟨w, d', rfl, hpaths.trans (by decide), (htop _ rfl).trans (by decide)⟩

end TaskLoom
