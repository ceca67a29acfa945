import Mathlib.Data.List.Flatten
import Mathlib.Data.List.TakeWhile
import TaskLoom.Output
import TaskLoom.Proofs.Files.Paths
import TaskLoom.Proofs.Text.Sorting

/-!
# The sources of a loaded bundle

Loading reads every source and collects the modules of all of them, each with a name of its own.
The modules of the tasks are taken from these (`load_loaded`).  The path of a source has the ending
that was looked for (`endsWith_of_load`).  The sources to copy lose the modules that are generated;
what they keep still has different names, and the module of a leaf task is among it
(`Bundle.Loaded.module_kept`).
-/

namespace TaskLoom

/-- What loading has made sure of: the modules of each source are those that its text defines, no
two of them have the same name, and the module of a task has its name and comes from a source. -/
structure Bundle.Loaded (b : Bundle) : Prop where
  parsed : ∀ s ∈ b.sources, Source.parse s.text = .ok s.modules
  distinct : ((b.sources.flatMap SourceFile.modules).map Module.name).Nodup
  attached : ∀ n m, b.parts.module? n = some m → m.name = n ∧ ∃ s ∈ b.sources, m ∈ s.modules

theorem collectModules_ok {file : String} {known ms all : List Module}
    (h : collectModules file known ms = .ok all) (hnodup : (known.map Module.name).Nodup) :
    all = known ++ ms ∧ (all.map Module.name).Nodup := by
  induction ms generalizing known with
  | nil =>
    cases h
    exact ⟨by simp, hnodup⟩
  | cons m ms ih =>
    unfold collectModules at h
    split at h
    · cases h
    · rename_i hnew
      have hname : m.name ∉ known.map Module.name := by
        intro hmem
        obtain ⟨k, hk, hkm⟩ := List.mem_map.1 hmem
        exact hnew (List.any_eq_true.2 ⟨k, hk, beq_iff_eq.2 hkm⟩)
      obtain ⟨rfl, hall⟩ := ih h (by
        rw [List.map_append, List.map_singleton]
        exact List.nodup_append.2 ⟨hnodup, by simp, by simpa using hname⟩)
      exact ⟨by simp, hall⟩

theorem collectSources_ok {known all : List Module} {ss : List SourceFile}
    (h : (collectSources known ss).2 = .ok all) (hnodup : (known.map Module.name).Nodup) :
    all = known ++ ss.flatMap SourceFile.modules ∧ (all.map Module.name).Nodup := by
  induction ss generalizing known with
  | nil =>
    cases h
    exact ⟨by simp, hnodup⟩
  | cons s ss ih =>
    unfold collectSources at h
    split at h
    · cases h
    · rename_i known' hknown'
      obtain ⟨rfl, hnodup'⟩ := collectModules_ok hknown' hnodup
      obtain ⟨rfl, hall⟩ := ih h hnodup'
      exact ⟨by simp, hall⟩

theorem readSource_ok {t : FileTree} {dir rel : String} {s : SourceFile}
    (h : readSource t dir rel = .ok s) : s.path = rel ∧ Source.parse s.text = .ok s.modules := by
  unfold readSource at h
  split at h
  · cases h
  split at h
  · cases h
  · cases h
    exact ⟨rfl, by assumption⟩

/-- The sources that are read have the paths of the files that were found, and the modules of their
texts. -/
theorem readSources_ok {t : FileTree} {dir : String} {sources : List SourceFile}
    (h : readSources t dir = .ok sources) : sources.map SourceFile.path = t.scan dir sourceSuffix ∧
      ∀ s ∈ sources, Source.parse s.text = .ok s.modules := by
  unfold readSources at h
  generalize t.scan dir sourceSuffix = names at h ⊢
  induction names generalizing sources with
  | nil =>
    cases h
    exact ⟨rfl, by simp⟩
  | cons n names ih =>
    rw [List.mapM_cons] at h
    cases hs : readSource t dir n with
    | error e =>
      rw [hs] at h
      cases h
    | ok s =>
      cases hss : names.mapM (readSource t dir) with
      | error e =>
        rw [hs, hss] at h
        cases h
      | ok ss =>
        rw [hs, hss] at h
        cases h
        obtain ⟨hpath, hparsed⟩ := readSource_ok hs
        obtain ⟨hpaths, hall⟩ := ih hss
        exact ⟨by rw [List.map_cons, hpath, hpaths], List.forall_mem_cons.2 ⟨hparsed, hall⟩⟩

/-- The module that is attached to a leaf task is the one of its name. -/
theorem module?_attachModules {p : Program} {ms : List Module} {n : String} {m : Module}
    (h : (attachModules p ms).module? n = some m) : m.name = n ∧ m ∈ ms := by
  obtain ⟨⟨n', m'⟩, hfind, rfl⟩ := Option.map_eq_some_iff.1 h
  have hkey := List.find?_some hfind
  obtain ⟨t, -, ht⟩ := List.mem_filterMap.1 (List.mem_of_find?_eq_some hfind)
  split at ht
  · obtain ⟨m'', hm, he⟩ := Option.map_eq_some_iff.1 ht
    cases he
    have hname := List.find?_some hm
    exact ⟨(beq_iff_eq.1 hname).trans (beq_iff_eq.1 hkey), List.mem_of_find?_eq_some hm⟩
  · cases ht

section
variable {tree : FileTree} {file dir : String} {log : List LogEntry} {b : Bundle}

/-- Without a directory of sources only the description is read.  Otherwise every source is read,
the modules of all sources are collected and attached, and no leaf task is left without a module. -/
theorem load_ok (h : load tree file dir = (log, .ok b)) :
    loadProgram tree file = .ok b.program ∧
      (dir = "" ∧ b.sources = [] ∧ b.parts = {} ∨
        readSources tree dir = .ok b.sources ∧ ∃ ms, (collectSources [] b.sources).2 = .ok ms ∧
          b.parts = attachModules b.program ms ∧ leavesWithoutModule b.program b.parts = []) := by
  unfold load at h
  split at h
  · cases h
  split at h
  · cases h
  rename_i p hprogram
  split at h
  · rename_i hdir
    cases h
    exact ⟨hprogram, .inl ⟨beq_iff_eq.1 hdir, rfl, rfl⟩⟩
  split at h
  · cases h
  rename_i sources hsources
  unfold assemble at h
  split at h
  · cases h
  rename_i log' ms hms
  simp only at h
  split at h
  · rename_i hleaves
    cases h
    exact ⟨hprogram, .inr ⟨hsources, ms, congrArg Prod.snd hms, rfl, hleaves⟩⟩
  · cases h

theorem load_loaded (h : load tree file dir = (log, .ok b)) : b.Loaded := by
  obtain ⟨-, ⟨-, hsources, hparts⟩ | ⟨hread, ms, hcollect, hparts, -⟩⟩ := load_ok h
  · refine ⟨by simp [hsources], by simp [hsources], fun n m hm => ?_⟩
    rw [hparts] at hm
    cases hm
  · obtain ⟨rfl, hnodup⟩ := collectSources_ok hcollect (by simp)
    refine ⟨(readSources_ok hread).2, hnodup, fun n m hm => ?_⟩
    rw [hparts] at hm
    obtain ⟨hname, hmem⟩ := module?_attachModules hm
    rw [List.nil_append, List.mem_flatMap] at hmem
    exact ⟨hname, hmem⟩

end

section
open TaskLoom.Path

theorem endsWith_behind {s ending : String} (front : String) (h : Text.endsWith s ending = true) :
    Text.endsWith (front ++ s) ending = true := by
  refine List.isSuffixOf_iff_suffix.2 ((List.isSuffixOf_iff_suffix.1 h).trans ?_)
  exact ⟨front.toList, by simp⟩

/-- What ends like a source is an element that goes on. -/
theorem goes_on_of_suffix {e : String} (h : Text.endsWith e sourceSuffix = true) :
    e ≠ "" ∧ e ≠ "." ∧ e ≠ ".." ∧ e ≠ "/" := by
  refine ⟨?_, ?_, ?_, ?_⟩
  all_goals
    rintro rfl
    revert h
    decide

theorem slashless_baseName (p : String) : '/' ∉ (baseName p).toList ∨ baseName p = "/" := by
  unfold baseName
  split
  · exact .inl (by decide)
  · simp only
    split
    · exact .inr rfl
    · refine .inl fun hmem => ?_
      rw [String.toList_ofList, List.mem_reverse] at hmem
      simpa using List.mem_takeWhile_imp hmem

theorem endsWith_join {dir name : String} (hdir : dir ≠ "") (hname : '/' ∉ name.toList)
    (hend : Text.endsWith name sourceSuffix = true) :
    Text.endsWith (join dir name) sourceSuffix = true := by
  obtain ⟨hempty, hdot, hback, -⟩ := goes_on_of_suffix hend
  have hresolve : resolve dir name = name :: stack dir := by
    rw [resolve, elements_of_slashless hname]
    exact push_plain hempty hdot hback
  obtain ⟨front, hfront⟩ := exists_ofElements (hresolve ▸ normal_resolve dir name)
  rw [join_eq hdir, hresolve, hfront]
  exact endsWith_behind front hend

namespace FileTree

variable {t : FileTree}

theorem name_of_mem_entries {dir : String} {x : String × Bool} (h : x ∈ t.entries dir) :
    ∃ p, x.1 = baseName p := by
  unfold entries at h
  obtain ⟨p, -, rfl⟩ := List.mem_map.1 (Text.mem_sortedBy.1 h)
  exact ⟨p, rfl⟩

theorem endsWith_of_scanFrom {base rel p : String} {fuel : Nat} (hrel : rel ≠ "")
    (h : p ∈ t.scanFrom base sourceSuffix fuel rel) : Text.endsWith p sourceSuffix = true := by
  induction fuel generalizing rel with
  | zero => simp [scanFrom] at h
  | succ fuel ih =>
    simp only [scanFrom] at h
    split at h
    · simp at h
    · rcases List.mem_append.1 h with h | h
      · obtain ⟨x, hx, rfl⟩ := List.mem_map.1 h
        obtain ⟨hx, hend⟩ := List.mem_filter.1 hx
        obtain ⟨p, hp⟩ := name_of_mem_entries hx
        refine endsWith_join hrel ?_ hend
        rcases slashless_baseName p with hslash | hroot
        · rwa [hp]
        · exact absurd (hp.trans hroot) (goes_on_of_suffix hend).2.2.2
      · obtain ⟨x, -, hx⟩ := List.mem_flatMap.1 h
        refine ih ?_ hx
        rw [join_eq hrel]
        exact ofElements_ne_empty (normal_resolve rel x.1)

theorem endsWith_of_scan {dir p : String} (h : p ∈ t.scan dir sourceSuffix) :
    Text.endsWith p sourceSuffix = true :=
  endsWith_of_scanFrom (by decide) (Text.mem_sortedBy.1 h)

end FileTree

/-- The paths of loaded sources end like those of sources. -/
theorem endsWith_of_load {tree : FileTree} {file dir : String} {log : List LogEntry} {b : Bundle}
    (h : load tree file dir = (log, .ok b)) :
    ∀ s ∈ b.sources, Text.endsWith s.path sourceSuffix = true := by
  intro s hs
  obtain ⟨-, ⟨-, hsources, -⟩ | ⟨hread, -⟩⟩ := load_ok h
  · rw [hsources] at hs
    cases hs
  · have hpath : s.path ∈ b.sources.map SourceFile.path := List.mem_map_of_mem hs
    rw [(readSources_ok hread).1] at hpath
    exact FileTree.endsWith_of_scan hpath

end

/-! ### Sources to copy -/

/-- The modules of a source that are not generated. -/
def SourceFile.kept (generated : List String) (s : SourceFile) : List Module :=
  s.modules.filter fun m => !generated.contains m.name

theorem SourceFile.mem_kept {generated : List String} {s : SourceFile} {m : Module} :
    m ∈ s.kept generated ↔ m ∈ s.modules ∧ m.name ∉ generated := by
  simp [kept]

namespace Bundle

variable {b : Bundle} {generated : List String}

theorem passThrough_sublist (b : Bundle) : b.passThrough.Sublist b.sources := List.filter_sublist

namespace Loaded

variable (h : b.Loaded)

include h

theorem parsed_passThrough : ∀ s ∈ b.passThrough, Source.parse s.text = .ok s.modules :=
  fun s hs => h.parsed s (b.passThrough_sublist.mem hs)

/-- The modules that the sources to copy keep have different names, none of which is generated. -/
theorem nodup_kept (generated : List String) :
    ((b.passThrough.flatMap (·.kept generated)).map Module.name).Nodup := by
  refine h.distinct.sublist (List.Sublist.map _ ?_)
  exact (List.Sublist.flatMap_right _ fun s _ => List.filter_sublist).trans
    (b.passThrough_sublist.flatMap _)

/-- The module of a leaf task is kept, unless another module of its name is generated. -/
theorem module_kept {t : Task} {m : Module} (ht : b.program.task? m.name = some t)
    (hleaf : t.isComposite = false) (hm : b.parts.module? m.name = some m)
    (hnew : m.name ∉ generated) : m ∈ b.passThrough.flatMap (·.kept generated) := by
  obtain ⟨-, s, hs, hms⟩ := h.attached _ _ hm
  refine List.mem_flatMap.2 ⟨s, List.mem_filter.2 ⟨hs, ?_⟩, SourceFile.mem_kept.2 ⟨hms, hnew⟩⟩
  rw [Bool.or_eq_true]
  refine .inr (List.any_eq_true.2 ⟨m, hms, ?_⟩)
  rw [ht]
  simp [hleaf]

end Loaded

end Bundle

end TaskLoom
