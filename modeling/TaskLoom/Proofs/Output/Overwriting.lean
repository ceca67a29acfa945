import Mathlib.Data.List.Nodup
import TaskLoom.Proofs.Files.Paths
import TaskLoom.Proofs.Output.Definitions

/-!
# Files that are written over one another

The names of all files are different when a design is written, but two names may mean one place
below the output directory.  Then both files are written to one path, and the later one stays there
(`Writing.writeFiles_last`).

Main statement: a success keeps all files apart exactly if their names mean different places, which
they do if no module name has a slash and the paths of the sources are plain (`written_apart_iff`).
-/

namespace TaskLoom

open TaskLoom.Path

/-- A file with the ending of a source has a last element that goes on. -/
theorem exists_resolve {name : String} (dir : String) (h : Text.endsWith name sourceSuffix = true) :
    ∃ e done, resolve dir name = e :: done ∧ e ≠ ".." := by
  obtain ⟨before, stem, helements⟩ := exists_last_element sourceSuffix h (by decide)
  have hend : Text.endsWith (stem ++ sourceSuffix) sourceSuffix = true :=
    endsWith_behind stem (by decide)
  obtain ⟨hempty, hdot, hback, -⟩ := goes_on_of_suffix hend
  have hresolve : resolve dir name = (stem ++ sourceSuffix) ::
      before.foldl (push (isRooted dir)) (stack dir) := by
    rw [resolve, helements, List.foldl_append]
    exact push_plain hempty hdot hback
  exact ⟨_, _, hresolve, hback⟩

/-- A path below the output directory leads to itself, if it leads anywhere. -/
theorem locate_below {t : FileTree} {dir name c : String} (hdir : dir ≠ "")
    (hname : Text.endsWith name sourceSuffix = true) (h : t.locate (join dir name) = .ok c) :
    c = join dir name := by
  cases hs : t.storage with
  | disk => rw [FileTree.locate_disk hs h, clean_join hdir]
  | memory =>
    obtain ⟨e, done, hresolve, hback⟩ := exists_resolve dir hname
    have hstack : stack (join dir name) = e :: done := by
      rw [join_eq hdir, stack_ofElements (normal_resolve dir name), hresolve]
    have hplace : join dir name ≠ "." ∧ join dir name ≠ ".." := by
      constructor
      all_goals
        intro he
        rw [he] at hstack
      · cases hstack
      · exact hback (List.cons.inj hstack).1.symm
    have hkey : t.locate (join dir name) = .ok (join dir name) := by
      simp [FileTree.locate, hs, FileTree.key, clean_join hdir, hplace]
    rw [hkey] at h
    exact (Except.ok.inj h).symm

namespace Writing

/-- At each path the last one of its files stays. -/
theorem writeFiles_last {dir : String} {files : List OutputFile} {d d' : Desk} (hdir : dir ≠ "")
    (hnames : ∀ f ∈ files, Text.endsWith f.name sourceSuffix = true)
    (h : writeFiles dir files d = .ok () d') {f : OutputFile} (hf : f ∈ files) :
    d'.files.textAt? (outputPath dir f) =
      (files.filter (outputPath dir · == outputPath dir f)).getLast?.map OutputFile.text := by
  have hstored := (writeFiles_stores dir files).of_ok h
  refine hstored.textAt? hf fun g hg => ?_
  rw [beq_iff_eq]
  refine ⟨fun he => by rw [he], fun he => ?_⟩
  -- both paths lead to themselves
  obtain ⟨c, hc⟩ := hstored.exists_place hf
  have hplace := locate_below hdir (hnames g hg) (he.trans hc)
  exact hplace.symm.trans (locate_below hdir (hnames f hf) hc)

/-! ### Collisions -/

/-- A step that claims files of the given names, and that reports a collision only if a name occurs
twice. -/
structure Repeats (x : List OutputFile → Writing (List OutputFile)) (names : List String) : Prop where
  follows : ∀ claimed, (x claimed).Prepares (Followed claimed names)
  collides : ∀ claimed d e d', x claimed d = .error e d' → e.kind? = some .namingCollision →
    ¬ (claimed.map OutputFile.name ++ names).Nodup

theorem bind_error {α β : Type} {x : Writing α} {f : α → Writing β} {d d' : Desk} {e : OutputError} :
    (x >>= f) d = .error e d' ↔
      x d = .error e d' ∨ ∃ a d₁, x d = .ok a d₁ ∧ f a d₁ = .error e d' := by
  simp only [bind, EStateM.bind]
  cases x d with
  | ok a d₁ =>
    refine ⟨fun h => .inr ⟨a, d₁, rfl, h⟩, ?_⟩
    rintro (h | ⟨_, _, he, h⟩)
    · cases h
    · cases he
      exact h
  | error e₁ d₁ => simp

/-- A primitive that is not at hand is no collision. -/
theorem kind_primitiveText {assets : Assets} {name file : String} {d d' : Desk} {e : OutputError}
    (h : primitiveText assets name file d = .error e d') : e.kind? = none := by
  unfold primitiveText at h
  cases assets with
  | none =>
    cases h
    rfl
  | dir path =>
    simp only [Bind.bind, EStateM.bind, get_apply] at h
    cases hread : d.files.read (Path.join path file) with
    | ok text =>
      simp only [hread] at h
      cases h
    | error e' =>
      simp only [hread] at h
      cases h
      rfl
  | texts all =>
    cases hfind : all.find? (·.1 == file) with
    | some entry =>
      simp only [hfind] at h
      cases h
    | none =>
      simp only [hfind] at h
      cases h
      rfl

namespace Repeats

variable {x y : List OutputFile → Writing (List OutputFile)} {names names' : List String}

theorem bind (hx : Repeats x names) (hy : Repeats y names') :
    Repeats (fun claimed => x claimed >>= y) (names ++ names') where
  follows claimed := .bind (hx.follows claimed) fun claimed' hclaimed' =>
    (hy.follows claimed').mono fun files h => hclaimed'.append h
  collides claimed d e d' h hkind hnodup := by
    rw [← List.append_assoc] at hnodup
    rcases bind_error.1 h with h | ⟨claimed', d₁, hr, h⟩
    · exact hx.collides claimed d e d' h hkind (List.nodup_append.1 hnodup).1
    · have hfollow := (hx.follows claimed).of_ok hr
      rw [Followed] at hfollow
      exact hy.collides claimed' d₁ e d' h hkind (hfollow ▸ hnodup)

theorem claim (f : OutputFile) : Repeats (Writing.claim · f) [f.name] where
  follows claimed := claim_prepares claimed f
  collides claimed d e d' h _ hnodup := by
    cases hfind : claimed.find? (·.name == f.name) with
    | none =>
      simp only [Writing.claim, hfind] at h
      cases h
    | some g =>
      have hmem : f.name ∈ claimed.map OutputFile.name :=
        List.mem_map.2 ⟨g, List.mem_of_find?_eq_some hfind, by simpa using List.find?_some hfind⟩
      exact (List.nodup_append.1 hnodup).2.2 _ hmem _ (List.mem_singleton_self _) rfl

theorem claimModules (ms : List Module) :
    Repeats (Writing.claimModules · ms) (ms.map fun m => m.name ++ sourceSuffix) := by
  induction ms with
  | nil => exact ⟨fun claimed => claimModules_prepares claimed [], fun _ _ _ _ h => by cases h⟩
  | cons m ms ih => exact (claim (moduleFile m)).bind ih

theorem claimSources (generated : List String) (ss : List SourceFile) :
    Repeats (Writing.claimSources generated · ss) (ss.map SourceFile.path) := by
  induction ss with
  | nil =>
    exact ⟨fun claimed => claimSources_prepares claimed generated [], fun _ _ _ _ h => by cases h⟩
  | cons s ss ih =>
    have hclaim := (claim (s.copied generated)).bind ih
    refine ⟨fun claimed => claimSources_prepares claimed generated (s :: ss),
      fun claimed d e d' h hkind => ?_⟩
    unfold Writing.claimSources at h
    split at h
    · rcases bind_error.1 h with h | ⟨_, d₁, -, h⟩
      · cases h
      · exact hclaim.collides claimed d₁ e d' h hkind
    · exact hclaim.collides claimed d e d' h hkind

theorem claimPrimitives (assets : Assets) (ps : List (String × String)) :
    Repeats (Writing.claimPrimitives assets · ps) (ps.map Prod.snd) := by
  induction ps with
  | nil =>
    exact ⟨fun claimed => claimPrimitives_prepares claimed assets [], fun _ _ _ _ h => by cases h⟩
  | cons p ps ih =>
    refine ⟨fun claimed => claimPrimitives_prepares claimed assets (p :: ps),
      fun claimed d e d' h hkind => ?_⟩
    rcases bind_error.1 h with h | ⟨text, d₁, -, h⟩
    · rw [kind_primitiveText h] at hkind
      cases hkind
    · exact ((claim ⟨p.2, "primitive " ++ p.1, text⟩).bind ih).collides claimed d₁ e d' h hkind

end Repeats

/-- Collecting reports a collision only if two files have one name. -/
theorem collect_collides {g : Design} {sources : List SourceFile} {assets : Assets} {d d' : Desk}
    {e : OutputError} (h : collect g sources assets d = .error e d')
    (hkind : e.kind? = some .namingCollision) : ¬ (g.fileNames sources).Nodup := by
  have hall := (Repeats.claimModules g.modules).bind
    ((Repeats.claimSources (g.modules.map Module.name) sources).bind
      (Repeats.claimPrimitives assets (usedPrimitives g)))
  have hnames := hall.collides [] d e d' h hkind
  rwa [List.map_nil, List.nil_append, ← List.append_assoc] at hnames

theorem Stores.kind_none {α : Type} {x : Writing α} {entries : List (String × String)}
    {R : α → Prop} (h : x.Stores entries R) {d d' : Desk} {e : OutputError} (hr : x d = .error e d') :
    e.kind? = none := by
  have hx := h d
  rw [hr] at hx
  cases e <;> first | rfl | cases hx

theorem kind_lint {lint : Option LintOutcome} {d d' : Desk} {e : OutputError}
    (h : Writing.lint lint d = .error e d') : e.kind? = none := by
  rcases lint with _ | ⟨reason⟩ | ⟨_ | code⟩ <;> cases h <;> rfl

/-! ### Files that are kept apart -/

/-- Each file has a path of its own, and its text stands there. -/
def KeptApart (t : FileTree) (dir : String) (files : List OutputFile) : Prop :=
  (files.map (outputPath dir)).Nodup ∧
    ∀ f ∈ files, t.textAt? (outputPath dir f) = some f.text

/-- The files of a design have the ending of sources. -/
theorem endsWith_of_collect {g : Design} {sources : List SourceFile} {assets : Assets} {d d' : Desk}
    {files : List OutputFile} (h : collect g sources assets d = .ok files d')
    (hsources : ∀ s ∈ sources, Text.endsWith s.path sourceSuffix = true) :
    ∀ f ∈ files, Text.endsWith f.name sourceSuffix = true := by
  have hnames : files.map OutputFile.name = g.fileNames sources :=
    (collect_prepares g sources assets).of_ok h
  intro f hf
  have hmem : f.name ∈ g.fileNames sources := hnames ▸ List.mem_map_of_mem hf
  rw [Design.fileNames, List.mem_append, List.mem_append] at hmem
  rcases hmem with (hmem | hmem) | hmem
  · obtain ⟨m, -, hm⟩ := List.mem_map.1 hmem
    rw [← hm]
    exact endsWith_behind m.name (by decide)
  · obtain ⟨s, hs, hpath⟩ := List.mem_map.1 hmem
    rw [← hpath]
    exact hsources s hs
  · obtain ⟨p, hp, hfile⟩ := List.mem_map.1 hmem
    have hall : ∀ p ∈ primitives, Text.endsWith p.2 sourceSuffix = true := by decide
    rw [← hfile]
    exact hall p (List.mem_of_mem_filter hp)

end Writing

/-- A collision is reported only if two files have one name. -/
theorem writeDesign_collides {g : Design} {sources : List SourceFile} {dir : String}
    {assets : Assets} {lint : Option LintOutcome} {d d' : Desk} {e : OutputError}
    (h : writeDesign (some g) sources dir assets lint d = .error e d')
    (hkind : e.kind? = some .namingCollision) : ¬ (g.fileNames sources).Nodup := by
  cases htop : g.top with
  | none =>
    simp only [writeDesign, htop] at h
    cases h
    cases hkind
  | some top =>
    by_cases hdir : (dir == "" || dir == "-") = true
    · simp only [writeDesign, htop, hdir, if_true] at h
      cases h
      cases hkind
    · simp only [writeDesign, htop, if_neg hdir] at h
      rcases Writing.bind_error.1 h with h | ⟨files, d₁, -, h⟩
      · exact Writing.collect_collides h hkind
      -- once the files are collected, no error is a collision
      have hnone : e.kind? = none := by
        rcases Writing.bind_error.1 h with h | ⟨_, d₂, -, h⟩
        · exact (Writing.makeOutputDir_stores dir).kind_none h
        rcases Writing.bind_error.1 h with h | ⟨_, d₃, -, h⟩
        · exact (Writing.writeFiles_stores dir files).kind_none h
        rcases Writing.bind_error.1 h with h | ⟨_, d₄, -, h⟩
        · exact Writing.kind_lint h
        · cases h
      rw [hnone] at hkind
      cases hkind

/-- Paths below a directory are different exactly if they mean different places. -/
theorem nodup_join_iff {dir : String} (hdir : dir ≠ "") (names : List String) :
    (names.map (join dir)).Nodup ↔ (names.map (resolve dir)).Nodup := by
  simp only [List.Nodup, List.pairwise_map, ne_eq, join_eq_iff hdir]

/-- The names of a design are plain if those of its modules have no slash and those of the sources
are plain. -/
theorem Design.plain_fileNames {g : Design} {sources : List SourceFile}
    (hmodules : ∀ m ∈ g.modules, '/' ∉ m.name.toList) (hsources : ∀ s ∈ sources, Plain s.path) :
    ∀ name ∈ g.fileNames sources, Plain name := by
  intro name hname
  rw [Design.fileNames, List.mem_append, List.mem_append] at hname
  rcases hname with (hname | hname) | hname
  · obtain ⟨m, hm, rfl⟩ := List.mem_map.1 hname
    have hslash : '/' ∉ (m.name ++ sourceSuffix).toList := by
      rw [String.toList_append, List.mem_append, not_or]
      exact ⟨hmodules m hm, by decide⟩
    obtain ⟨hempty, hdot, hback, -⟩ :=
      goes_on_of_suffix (endsWith_behind m.name (by decide : Text.endsWith sourceSuffix _ = true))
    intro e he
    rw [elements_of_slashless hslash, List.mem_singleton] at he
    rw [he]
    exact ⟨hempty, hdot, hback⟩
  · obtain ⟨s, hs, rfl⟩ := List.mem_map.1 hname
    exact hsources s hs
  · obtain ⟨p, hp, rfl⟩ := List.mem_map.1 hname
    have hall : ∀ p ∈ Writing.primitives, Plain p.2 := by decide
    exact hall p (List.mem_of_mem_filter hp)

/-- The names of the files of a design are compared as they are.  So a collision is reported only
for two files with one name, and with such files no run succeeds.  A success writes the modules, the
copies of the sources and the primitives to their paths below the output directory, the later one
over the earlier one if two have one path.  It keeps all of them apart, each with its own text,
exactly if their names mean different places; and so they do if no module name has a slash and the
paths of the sources have no empty, `.` or `..` elements. -/
theorem written_apart_iff {g : Design} {sources : List SourceFile}
    (hsources : ∀ s ∈ sources, Text.endsWith s.path sourceSuffix = true) (dir : String)
    (assets : Assets) (lint : Option LintOutcome) (d : Desk) :
    match writeDesign (some g) sources dir assets lint d with
    | .error e _ => e.kind? = some .namingCollision → ¬ (g.fileNames sources).Nodup
    | .ok w d' => (g.fileNames sources).Nodup ∧
        ∃ ps, List.Forall₂ (Writing.IsPrimitive assets d.files) (Writing.usedPrimitives g) ps ∧
          ∃ files, files = g.modules.map Writing.moduleFile ++
              sources.map (·.copied (g.modules.map Module.name)) ++ ps ∧
            w.paths = files.map (Writing.outputPath dir) ∧
            (∀ f ∈ files, d'.files.textAt? (Writing.outputPath dir f) =
              (files.filter (Writing.outputPath dir · == Writing.outputPath dir f)).getLast?.map
                OutputFile.text) ∧
            (Writing.KeptApart d'.files dir files ↔
              ((g.fileNames sources).map (resolve dir)).Nodup) ∧
            ((∀ m ∈ g.modules, '/' ∉ m.name.toList) → (∀ s ∈ sources, Plain s.path) →
              Writing.KeptApart d'.files dir files) := by
  cases hwrite : writeDesign (some g) sources dir assets lint d with
  | error e d' => exact writeDesign_collides hwrite
  | ok w d' =>
    obtain ⟨hdir, files, d₁, d₂, hcollect, hpaths, hfiles⟩ := writeDesign_steps hwrite
    obtain ⟨-, hnodup, ps, hps, hall⟩ := Writing.collect_ok hcollect
    have hnames : files.map OutputFile.name = g.fileNames sources :=
      (Writing.collect_prepares g sources assets).of_ok hcollect
    have hlast (f : OutputFile) (hf : f ∈ files) := Writing.writeFiles_last hdir
      (Writing.endsWith_of_collect hcollect hsources) hfiles hf
    have hpaths' : files.map (Writing.outputPath dir) = (g.fileNames sources).map (join dir) := by
      rw [← hnames, List.map_map]
      rfl
    have hiff : Writing.KeptApart d'.files dir files ↔
        ((g.fileNames sources).map (resolve dir)).Nodup := by
      rw [← nodup_join_iff hdir, ← hpaths']
      refine ⟨fun h => h.1, fun h => ⟨h, fun f hf => ?_⟩⟩
      rw [hlast f hf, Writing.filter_of_nodup h hf fun _ _ => beq_iff_eq]
      rfl
    refine ⟨hnames ▸ hnodup, ps, hps, files, hall, hpaths, hlast, hiff, fun hmodules hplain => ?_⟩
    have hnames' := Design.plain_fileNames hmodules hplain
    refine hiff.2 (List.Nodup.map_on (fun p hp q hq he => ?_) (hnames ▸ hnodup))
    exact resolve_inj (hnames' p hp) (hnames' q hq) he

/-- The generated module, the copied source and the primitive of a loaded program are kept apart. -/
theorem written_apart_stream : ∃ log b design w d,
    load (leafFiles streamText (streamSource streamOthers)) "program.json" "rtl" = (log, .ok b) ∧
    (generate {} b.program b.parts).result = .ok design ∧
    writeDesign (some design) b.passThrough "out" (.texts streamAssets) none ⟨{}, []⟩ = .ok w d ∧
    ∃ files, w.paths = files.map (Writing.outputPath "out") ∧
      Writing.KeptApart d.files "out" files := by
  have hall : (streamRun? streamOthers).any (fun (ms, design, _, _) =>
      decide ((∀ m ∈ design.modules, '/' ∉ m.name.toList) ∧
        ∀ s ∈ (streamBundle streamOthers ms).passThrough, Plain s.path)) = true := by
    decide +kernel
  obtain ⟨⟨ms, design, w, d⟩, hrun, hall⟩ := (Option.any_eq_true _ _).1 hall
  obtain ⟨hmodules, hplain⟩ := of_decide_eq_true hall
  obtain ⟨⟨log, hload⟩, hgen, hwrite⟩ := streamRun?_some hrun
  have happart := written_apart_iff (g := design) (fun s hs => endsWith_of_load hload s
    ((streamBundle streamOthers ms).passThrough_sublist.mem hs)) "out" (.texts streamAssets) none
    ⟨{}, []⟩
  rw [hwrite] at happart
  obtain ⟨-, _, -, files, -, hpaths, -, -, hkept⟩ := happart
  exact ⟨log, _, design, w, d, hload, hgen, hwrite, files, hpaths, hkept hmodules hplain⟩

/-- A top task with a child that is called `./Top`. -/
def dottedText : String :=
  "\x7b\"tasks\":\x7b\"./Top\":\x7b\"level\":1\x7d,\"Top\":\x7b\"level\":1," ++
  "\"tasks\":\x7b\"./Top\":[\x7b\x7d]\x7d\x7d\x7d,\"top\":\"Top\"\x7d"

def dottedProgram : Program where
  top := "Top"
  taskTable := [{ name := "./Top", level := .composite },
    { name := "Top", level := .composite, childTable := [⟨"./Top", [⟨0, []⟩]⟩] }]

def dottedFiles : FileTree := { files := [("program.json", dottedText)] }

theorem parse_dottedText : Description.parse .double dottedText = .ok dottedProgram :=
  Description.parse_of_ascii (by decide +kernel) (by decide +kernel)

/-- The design of a program without parts, and what is written for it. -/
def bareRun? (p : Program) : Option (Design × Written × Desk) := do
  let design ← (generate {} p {}).result.toOption
  let write : Writing (Design × Written × Desk) := do
    let w ← writeDesign (some design) [] "out" .none none
    return (design, w, ← get)
  write.run' ⟨{}, []⟩

theorem bareRun?_some {p : Program} {r : Design × Written × Desk} (h : bareRun? p = some r) :
    (generate {} p {}).result = .ok r.1 ∧
      writeDesign (some r.1) [] "out" .none none ⟨{}, []⟩ = .ok r.2.1 r.2.2 := by
  obtain ⟨design, hgen, h⟩ := Option.bind_eq_some_iff.1 h
  cases hwrite : writeDesign (some design) [] "out" .none none ⟨{}, []⟩ with
  | ok w d =>
    delta EStateM.run' at h
    simp only [EStateM.run, bind, EStateM.bind, hwrite] at h
    cases h
    exact ⟨Source.toOption_eq_some.1 hgen, hwrite⟩
  | error e d =>
    delta EStateM.run' at h
    simp only [EStateM.run, bind, EStateM.bind, hwrite] at h
    cases h

/-- The module of the child is written to the path of the top module, and then that one over it. -/
theorem module_overwritten : ∃ b design w d,
    load dottedFiles "program.json" "" = ([], .ok b) ∧
    Program.check (some b.program) = .ok () ∧
    (generate {} b.program b.parts).result = .ok design ∧
    writeDesign (some design) b.passThrough "out" .none none ⟨{}, []⟩ = .ok w d ∧
    ¬ w.paths.Nodup ∧ ∃ m ∈ design.modules,
      d.files.textAt? (Writing.outputPath "out" (Writing.moduleFile m)) ≠ some m.render := by
  let b : Bundle := { program := dottedProgram, sourceDir := "" }
  have hload : load dottedFiles "program.json" "" = ([], .ok b) := by
    have hread : dottedFiles.read "program.json" = .ok dottedText := by with_unfolding_all rfl
    simp [load, loadProgram, hread, parse_dottedText, b]
  have hcheck : Program.check (some dottedProgram) = .ok () := by with_unfolding_all rfl
  have hall : (bareRun? dottedProgram).any (fun r =>
      decide (¬ r.2.1.paths.Nodup ∧ ∃ m ∈ r.1.modules,
        r.2.2.files.textAt? (Writing.outputPath "out" (Writing.moduleFile m)) ≠
          some m.render)) = true := by
    decide +kernel
  obtain ⟨r, hrun, hall⟩ := (Option.any_eq_true _ _).1 hall
  obtain ⟨hpaths, hover⟩ := of_decide_eq_true hall
  obtain ⟨hgen, hwrite⟩ := bareRun?_some hrun
  exact ⟨b, r.1, r.2.1, r.2.2, hload, hcheck, hgen, hwrite, hpaths, hover⟩

end TaskLoom
