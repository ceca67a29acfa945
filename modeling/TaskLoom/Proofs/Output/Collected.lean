import Mathlib.Data.List.Forall2
import TaskLoom.Proofs.Output.Writing

/-!
# What is in a written design

`Collects x P`: the step `x` claims further files behind the ones that are claimed already; it
leaves the tree alone, the names stay different, and `P` relates the tree to the further files.  The
modules, the sources and the primitives are claimed by three such steps (`collect_ok`).

Main statement: after a success the collected files stand in the tree, each with its own text if
their paths lead to different places (`writeDesign_ok`).
-/

namespace TaskLoom

/-- The text of a file in the assets. -/
def Assets.text? (t : FileTree) (file : String) : Assets → Option String
  | .none => Option.none
  | .dir path => (t.read (Path.join path file)).toOption
  | .texts all => (all.find? (·.1 == file)).map Prod.snd

/-- The text of the file that a path leads to. -/
def FileTree.textAt? (t : FileTree) (path : String) : Option String :=
  (t.locate path).toOption.bind t.file?

theorem FileTree.textAt?_of_locate {t : FileTree} {path c : String} (h : t.locate path = .ok c) :
    t.textAt? path = t.file? c := by
  simp [textAt?, h, Except.toOption]

/-- The copy of a source to write. -/
def SourceFile.copied (generated : List String) (s : SourceFile) : OutputFile :=
  ⟨s.path, "source " ++ s.path, Writing.keptText generated s⟩

namespace Writing

variable {α β : Type}

theorem bind_ok {x : Writing α} {f : α → Writing β} {d d' : Desk} {b : β} :
    (x >>= f) d = .ok b d' ↔ ∃ a d₁, x d = .ok a d₁ ∧ f a d₁ = .ok b d' := by
  simp only [bind, EStateM.bind]
  cases x d with
  | ok a d₁ => exact ⟨fun h => ⟨a, d₁, rfl, h⟩, fun ⟨_, _, he, h⟩ => by cases he; exact h⟩
  | error e d₁ => simp

/-- A step that claims further files of different names and touches no file of the tree.  The tree
and the further files are related by `P`. -/
def Collects (x : List OutputFile → Writing (List OutputFile))
    (P : FileTree → List OutputFile → Prop) : Prop :=
  ∀ claimed d files d', x claimed d = .ok files d' → d'.files = d.files ∧
    ∃ further, P d.files further ∧ files = claimed ++ further ∧
      ((claimed.map OutputFile.name).Nodup → (files.map OutputFile.name).Nodup)

namespace Collects

variable {x y : List OutputFile → Writing (List OutputFile)}
  {P Q : FileTree → List OutputFile → Prop}

theorem pure (h : ∀ t, P t []) : Collects (fun claimed => Pure.pure claimed) P := by
  intro claimed d files d' hr
  cases hr
  exact ⟨rfl, [], h d.files, by simp, id⟩

theorem bind (hx : Collects x P) (hy : Collects y Q) :
    Collects (fun claimed => x claimed >>= y)
      fun t files => ∃ fs gs, P t fs ∧ Q t gs ∧ files = fs ++ gs := by
  intro claimed d files d' hr
  obtain ⟨claimed', d₁, hr, hr'⟩ := bind_ok.1 hr
  obtain ⟨hfiles, fs, hp, rfl, hnodup⟩ := hx _ _ _ _ hr
  obtain ⟨hfiles', gs, hq, rfl, hnodup'⟩ := hy _ _ _ _ hr'
  exact ⟨hfiles'.trans hfiles, fs ++ gs, ⟨fs, gs, hp, hfiles ▸ hq, rfl⟩, List.append_assoc _ _ _,
    fun h => hnodup' (hnodup h)⟩

theorem note_bind {level : LogLevel} {message : String} {fields : List (String × LogValue)}
    (hx : Collects x P) :
    Collects (fun claimed => note level message fields >>= fun _ => x claimed) P := by
  intro claimed d files d' hr
  obtain ⟨⟨⟩, d₁, hnote, hr⟩ := bind_ok.1 hr
  have hfiles : d₁.files = d.files := by
    cases hnote
    rfl
  exact hfiles ▸ hx _ _ _ _ hr

theorem mono (hx : Collects x P) (h : ∀ t fs, P t fs → Q t fs) : Collects x Q := by
  intro claimed d files d' hr
  obtain ⟨hfiles, fs, hp, hrest⟩ := hx _ _ _ _ hr
  exact ⟨hfiles, fs, h _ _ hp, hrest⟩

end Collects

theorem collects_claim (f : OutputFile) : Collects (claim · f) fun _ files => files = [f] := by
  intro claimed d files d' hr
  simp only [claim] at hr
  cases hnew : claimed.find? (·.name == f.name) with
  | some g =>
    simp only [hnew] at hr
    cases hr
  | none =>
    simp only [hnew] at hr
    cases hr
    refine ⟨rfl, [f], rfl, rfl, fun hnodup => ?_⟩
    have hname : f.name ∉ claimed.map OutputFile.name := by
      intro hmem
      obtain ⟨g, hg, hgf⟩ := List.mem_map.1 hmem
      exact List.find?_eq_none.1 hnew g hg (beq_iff_eq.2 hgf)
    rw [List.map_append, List.map_singleton]
    exact List.nodup_append.2 ⟨hnodup, by simp, by simpa using hname⟩

theorem collects_claimModules (ms : List Module) :
    Collects (claimModules · ms) fun _ files => files = ms.map moduleFile := by
  induction ms with
  | nil => exact .pure fun _ => rfl
  | cons m ms ih =>
    refine ((collects_claim (moduleFile m)).bind ih).mono ?_
    rintro t _ ⟨_, _, rfl, rfl, rfl⟩
    rfl

theorem collects_claimSources (generated : List String) (ss : List SourceFile) :
    Collects (claimSources generated · ss) fun _ files => files = ss.map (·.copied generated) := by
  induction ss with
  | nil => exact .pure fun _ => rfl
  | cons s ss ih =>
    have hclaim : Collects (fun claimed => claim claimed (s.copied generated) >>= fun claimed =>
        claimSources generated claimed ss)
        fun _ files => files = (s :: ss).map (·.copied generated) := by
      refine ((collects_claim (s.copied generated)).bind ih).mono ?_
      rintro t _ ⟨_, _, rfl, rfl, rfl⟩
      rfl
    unfold claimSources
    split
    · exact hclaim.note_bind
    · exact hclaim

theorem primitiveText_ok {assets : Assets} {name file text : String} {d d' : Desk}
    (h : primitiveText assets name file d = .ok text d') :
    d' = d ∧ assets.text? d.files file = some text := by
  unfold primitiveText at h
  cases assets with
  | none => cases h
  | dir path =>
    simp only [Bind.bind, EStateM.bind, get_apply] at h
    cases hread : d.files.read (Path.join path file) with
    | error e =>
      simp only [hread] at h
      cases h
    | ok text' =>
      simp only [hread] at h
      cases h
      exact ⟨rfl, by simp [Assets.text?, hread, Except.toOption]⟩
  | texts all =>
    cases hfind : all.find? (·.1 == file) with
    | none =>
      simp only [hfind] at h
      cases h
    | some entry =>
      simp only [hfind] at h
      cases h
      exact ⟨rfl, by simp [Assets.text?, hfind]⟩

/-- The file is that of a primitive. -/
def IsPrimitive (assets : Assets) (t : FileTree) (p : String × String) (f : OutputFile) : Prop :=
  f.name = p.2 ∧ assets.text? t p.2 = some f.text

theorem collects_claimPrimitives (assets : Assets) (ps : List (String × String)) :
    Collects (claimPrimitives assets · ps) fun t files =>
      List.Forall₂ (IsPrimitive assets t) ps files := by
  induction ps with
  | nil => exact .pure fun _ => .nil
  | cons p ps ih =>
    intro claimed d files d' hr
    obtain ⟨text, d₁, htext, hclaim⟩ := bind_ok.1 hr
    obtain ⟨rfl, htext⟩ := primitiveText_ok htext
    obtain ⟨hfiles, _, ⟨_, fs, rfl, hps, rfl⟩, hrest⟩ :=
      (collects_claim ⟨p.2, "primitive " ++ p.1, text⟩).bind ih _ _ _ _ hclaim
    exact ⟨hfiles, _, .cons ⟨rfl, htext⟩ hps, hrest⟩

/-- The collected files have different names.  They are those of the modules, the copies of the
sources and the files of the primitives. -/
theorem collect_ok {g : Design} {sources : List SourceFile} {assets : Assets} {d d' : Desk}
    {files : List OutputFile} (h : collect g sources assets d = .ok files d') :
    d'.files = d.files ∧ (files.map OutputFile.name).Nodup ∧
      ∃ ps, List.Forall₂ (IsPrimitive assets d.files) (usedPrimitives g) ps ∧
        files = g.modules.map moduleFile ++
          sources.map (·.copied (g.modules.map Module.name)) ++ ps := by
  have hall := (collects_claimModules g.modules).bind
    ((collects_claimSources (g.modules.map Module.name) sources).bind
      (collects_claimPrimitives assets (usedPrimitives g)))
  obtain ⟨hfiles, _, ⟨_, _, rfl, ⟨_, ps, rfl, hps, rfl⟩, rfl⟩, rfl, hnodup⟩ := hall [] _ _ _ h
  exact ⟨hfiles, hnodup (by simp), ps, hps, by simp⟩

/-- An item with a key of its own is the only one that is found by this key. -/
theorem filter_of_nodup {κ : Type} {key : OutputFile → κ} {files : List OutputFile} {f : OutputFile}
    {p : OutputFile → Bool} (h : (files.map key).Nodup) (hf : f ∈ files)
    (hp : ∀ g ∈ files, p g = true ↔ key g = key f) : files.filter p = [f] := by
  induction files with
  | nil => cases hf
  | cons first files ih =>
    obtain ⟨hnew, h⟩ := List.nodup_cons.1 h
    obtain ⟨hfirst, hrest⟩ := List.forall_mem_cons.1 hp
    rcases List.mem_cons.1 hf with rfl | hf
    · have hothers : files.filter p = [] := List.filter_eq_nil_iff.2 fun g hg he =>
        hnew ((hrest g hg).1 he ▸ List.mem_map_of_mem hg)
      rw [List.filter_cons_of_pos (hfirst.2 rfl), hothers]
    · have hne : ¬ p first = true := fun he => hnew (hfirst.1 he ▸ List.mem_map_of_mem hf)
      rw [List.filter_cons_of_neg hne, ih h hf hrest]

theorem lastText_entries (t : FileTree) (c dir : String) (files : List OutputFile) :
    lastText t c (files.map (entry dir)) =
      (files.filter fun f => (t.locate (outputPath dir f)).toOption == some c).getLast?.map
        OutputFile.text := by
  rw [lastText, List.filter_map, List.getLast?_map, Option.map_map]
  rfl

section
variable {dir : String} {files : List OutputFile} {t t' : FileTree} {f : OutputFile}

theorem Stored.exists_place (h : Stored (files.map (entry dir)) t t') (hf : f ∈ files) :
    ∃ c, t'.locate (outputPath dir f) = .ok c :=
  h.listed (entry dir f) (List.mem_map_of_mem hf)

/-- At the path of a file stands the text of the last file that leads to the same place. -/
theorem Stored.textAt? (h : Stored (files.map (entry dir)) t t') (hf : f ∈ files)
    {p : OutputFile → Bool}
    (hp : ∀ g ∈ files, p g = true ↔ t'.locate (outputPath dir g) = t'.locate (outputPath dir f)) :
    t'.textAt? (outputPath dir f) = (files.filter p).getLast?.map OutputFile.text := by
  obtain ⟨c, hc⟩ := h.exists_place hf
  have hsome := isSome_lastText (List.mem_map_of_mem (f := entry dir) hf) hc
  have hfilter : (files.filter fun g => (t'.locate (outputPath dir g)).toOption == some c) =
      files.filter p := by
    refine List.filter_congr fun g hg => ?_
    rw [Bool.eq_iff_iff, leads_iff, hp g hg, hc]
  rw [FileTree.textAt?_of_locate hc, h.holds, Option.or_of_isSome hsome, lastText_entries, hfilter]

/-- Where the paths of the files lead to different places, each has its own text. -/
theorem Stored.text (h : Stored (files.map (entry dir)) t t')
    (hplaces : ((files.map (outputPath dir)).map t'.locate).Nodup) (hf : f ∈ files) :
    t'.textAt? (outputPath dir f) = some f.text := by
  obtain ⟨c, hc⟩ := h.exists_place hf
  have hp (g : OutputFile) (_ : g ∈ files) :
      ((t'.locate (outputPath dir g)).toOption == some c) = true ↔
        t'.locate (outputPath dir g) = t'.locate (outputPath dir f) := by
    rw [hc, leads_iff]
  rw [List.map_map] at hplaces
  rw [h.textAt? hf hp, filter_of_nodup hplaces hf hp]
  rfl

end

theorem lint_ok {lint : Option LintOutcome} {d d' : Desk} (h : Writing.lint lint d = .ok () d') :
    d' = d := by
  rcases lint with _ | ⟨reason⟩ | ⟨_ | code⟩ <;> cases h <;> rfl

end Writing

theorem usedPrimitives_sorted (g : Design) :
    (Writing.usedPrimitives g).Pairwise fun p q => p.1 < q.1 :=
  List.Pairwise.filter _ (by decide)

/-- A success has collected the files, made the output directory, and written the files one after
the other. -/
theorem writeDesign_steps {g : Design} {sources : List SourceFile} {dir : String} {assets : Assets}
    {lint : Option LintOutcome} {d d' : Desk} {w : Written}
    (h : writeDesign (some g) sources dir assets lint d = .ok w d') :
    dir ≠ "" ∧ ∃ files d₁ d₂, Writing.collect g sources assets d = .ok files d₁ ∧
      w.paths = files.map (Writing.outputPath dir) ∧ Writing.writeFiles dir files d₂ = .ok () d' := by
  cases htop : g.top with
  | none =>
    simp only [writeDesign, htop] at h
    cases h
  | some top =>
    by_cases hdir : (dir == "" || dir == "-") = true
    · simp only [writeDesign, htop, hdir, if_true] at h
      cases h
    · simp only [writeDesign, htop, if_neg hdir] at h
      obtain ⟨files, d₁, hcollect, h⟩ := Writing.bind_ok.1 h
      obtain ⟨⟨⟩, d₂, -, h⟩ := Writing.bind_ok.1 h
      obtain ⟨⟨⟩, d₃, hwrite, h⟩ := Writing.bind_ok.1 h
      obtain ⟨⟨⟩, d₄, hlint, h⟩ := Writing.bind_ok.1 h
      cases h
      rw [Writing.lint_ok hlint]
      refine ⟨?_, files, d₁, d₂, hcollect, rfl, hwrite⟩
      rintro rfl
      exact hdir rfl

/-- A success has written the collected files to the listed paths.  Where these lead to different
places, each file has its own text. -/
theorem writeDesign_ok {g : Design} {sources : List SourceFile} {dir : String} {assets : Assets}
    {lint : Option LintOutcome} {d d' : Desk} {w : Written}
    (h : writeDesign (some g) sources dir assets lint d = .ok w d') :
    ∃ files d₁, Writing.collect g sources assets d = .ok files d₁ ∧
      w.paths = files.map (Writing.outputPath dir) ∧
      ((w.paths.map d'.files.locate).Nodup →
        ∀ f ∈ files, d'.files.textAt? (Writing.outputPath dir f) = some f.text) := by
  obtain ⟨-, files, d₁, d₂, hcollect, hpaths, hwrite⟩ := writeDesign_steps h
  have hstored := (Writing.writeFiles_stores dir files).of_ok hwrite
  exact ⟨files, d₁, hcollect, hpaths, fun hplaces f hf => hstored.text (hpaths ▸ hplaces) hf⟩

end TaskLoom
