import TaskLoom.Output
import TaskLoom.Proofs.Files.Growth

/-!
# The steps of writing a design

All files are collected before the first one is written.  Collecting leaves the file tree as it is,
however it ends (`Prepares`), and the writing that follows can fail only in the storage (`Stores`).
After a success each place holds the text that was written there last, or what it held before
(`Stored`).
-/

namespace TaskLoom

/-- Whether an error comes from making a directory or from writing a file. -/
def OutputError.isStorage : OutputError → Bool
  | .outputDir _ | .parentDir .. | .unwritable .. => true
  | _ => false

/-- The names of the files of a design in order: its modules, the sources, the primitives. -/
def Design.fileNames (g : Design) (sources : List SourceFile) : List String :=
  g.modules.map (fun m => m.name ++ sourceSuffix) ++ sources.map SourceFile.path ++
    (Writing.usedPrimitives g).map Prod.snd

namespace Writing

variable {α β : Type}

/-! ### Collecting the files -/

/-- A step that leaves the files as they are, however it ends, with a result that satisfies `R`. -/
def Prepares (x : Writing α) (R : α → Prop) : Prop :=
  ∀ d, match x d with
    | .ok a d' => d'.files = d.files ∧ R a
    | .error _ d' => d'.files = d.files

namespace Prepares

variable {x : Writing α} {f : α → Writing β} {R R' : α → Prop} {S : β → Prop}

theorem pure {a : α} (h : R a) : Prepares (Pure.pure a) R := fun _ => ⟨rfl, h⟩

theorem throw {e : OutputError} : Prepares (MonadExcept.throw e : Writing α) R := fun _ => rfl

theorem mono (h : x.Prepares R) (hR : ∀ a, R a → R' a) : x.Prepares R' := by
  intro d
  have hx := h d
  cases hxd : x d with
  | error e d' => simpa [hxd] using hx
  | ok a d' =>
    rw [hxd] at hx
    exact ⟨hx.1, hR a hx.2⟩

theorem bind (h : x.Prepares R) (hf : ∀ a, R a → (f a).Prepares S) : (x >>= f).Prepares S := by
  intro d
  have hx := h d
  simp only [Bind.bind, EStateM.bind]
  cases hxd : x d with
  | error e d₁ =>
    rw [hxd] at hx
    exact hx
  | ok a d₁ =>
    rw [hxd] at hx
    have hfa := hf a hx.2 d₁
    dsimp only
    cases hfd : f a d₁ with
    | error e d₂ =>
      rw [hfd] at hfa
      exact hfa.trans hx.1
    | ok b d₂ =>
      rw [hfd] at hfa
      exact ⟨hfa.1.trans hx.1, hfa.2⟩

theorem of_ok (h : x.Prepares R) {d d' : Desk} {a : α} (hr : x d = .ok a d') : R a := by
  have hx := h d
  rw [hr] at hx
  exact hx.2

theorem get : Prepares (MonadState.get : Writing Desk) fun _ => True := fun _ => ⟨rfl, trivial⟩

theorem note (level : LogLevel) (message : String) (fields : List (String × LogValue)) :
    (Writing.note level message fields).Prepares fun _ => True := fun _ => ⟨rfl, trivial⟩

end Prepares

section
variable (claimed : List OutputFile)

/-- The claimed files with files of the given names behind them. -/
def Followed (names : List String) (files : List OutputFile) : Prop :=
  files.map OutputFile.name = claimed.map OutputFile.name ++ names

variable {claimed}

theorem Followed.cons {claimed' files : List OutputFile} {name : String} {names : List String}
    (h : Followed claimed [name] claimed') (h' : Followed claimed' names files) :
    Followed claimed (name :: names) files := by
  unfold Followed at *
  rw [h', h, List.append_assoc, List.singleton_append]

theorem Followed.append {claimed' files : List OutputFile} {names names' : List String}
    (h : Followed claimed names claimed') (h' : Followed claimed' names' files) :
    Followed claimed (names ++ names') files := by
  unfold Followed at *
  rw [h', h, List.append_assoc]

variable (claimed)

theorem claim_prepares (f : OutputFile) :
    (claim claimed f).Prepares (Followed claimed [f.name]) := by
  unfold claim
  split
  · exact .throw
  · exact .pure (by simp [Followed])

theorem claimModules_prepares (ms : List Module) :
    (claimModules claimed ms).Prepares
      (Followed claimed (ms.map fun m => m.name ++ sourceSuffix)) := by
  induction ms generalizing claimed with
  | nil => exact .pure (by simp [Followed])
  | cons m ms ih =>
    exact .bind (claim_prepares claimed (moduleFile m)) fun claimed' hclaimed' =>
      (ih claimed').mono fun files h => hclaimed'.cons h

theorem claimSources_prepares (generated : List String) (ss : List SourceFile) :
    (claimSources generated claimed ss).Prepares (Followed claimed (ss.map SourceFile.path)) := by
  induction ss generalizing claimed with
  | nil => exact .pure (by simp [Followed])
  | cons s ss ih =>
    have hrest : (claim claimed ⟨s.path, "source " ++ s.path, keptText generated s⟩ >>= fun claimed =>
        claimSources generated claimed ss).Prepares
          (Followed claimed ((s :: ss).map SourceFile.path)) :=
      .bind (claim_prepares claimed _) fun claimed' hclaimed' =>
        (ih claimed').mono fun files h => hclaimed'.cons h
    unfold claimSources
    split
    · exact .bind (.note _ _ _) fun _ _ => hrest
    · exact hrest

theorem primitiveText_prepares (assets : Assets) (name file : String) :
    (primitiveText assets name file).Prepares fun _ => True := by
  unfold primitiveText
  cases assets with
  | none => exact .throw
  | dir path =>
    refine .bind .get fun d _ => ?_
    split
    · exact .pure trivial
    · exact .throw
  | texts all =>
    dsimp only
    split
    · exact .pure trivial
    · exact .throw

theorem claimPrimitives_prepares (assets : Assets) (ps : List (String × String)) :
    (claimPrimitives assets claimed ps).Prepares (Followed claimed (ps.map Prod.snd)) := by
  induction ps generalizing claimed with
  | nil => exact .pure (by simp [Followed])
  | cons p ps ih =>
    exact .bind (primitiveText_prepares assets p.1 p.2) fun text _ =>
      .bind (claim_prepares claimed ⟨p.2, "primitive " ++ p.1, text⟩) fun claimed' hclaimed' =>
        (ih claimed').mono fun files h => hclaimed'.cons h

end

/-- Whatever goes wrong while the files are collected, nothing was written. -/
theorem collect_prepares (g : Design) (sources : List SourceFile) (assets : Assets) :
    (collect g sources assets).Prepares fun files =>
      files.map OutputFile.name = g.fileNames sources := by
  unfold collect
  refine .bind (claimModules_prepares [] g.modules) fun claimed hmodules => ?_
  refine .bind (claimSources_prepares claimed _ sources) fun claimed' hsources => ?_
  refine (claimPrimitives_prepares claimed' assets _).mono fun files hprimitives => ?_
  simpa [Followed, Design.fileNames] using (hmodules.append hsources).append hprimitives

/-! ### Writing the files -/

/-- The text that is written last to a place, if one is. -/
def lastText (t : FileTree) (place : String) (entries : List (String × String)) : Option String :=
  (entries.filter fun e => (t.locate e.1).toOption == some place).getLast?.map Prod.snd

theorem leads_iff {t : FileTree} {path place : String} :
    ((t.locate path).toOption == some place) = true ↔ t.locate path = .ok place := by
  cases t.locate path <;> simp [Except.toOption]

section
variable {t t' : FileTree} {entries entries' : List (String × String)} {c : String}

theorem lastText_append : lastText t c (entries ++ entries') =
    (lastText t c entries').or (lastText t c entries) := by
  rw [lastText, List.filter_append, List.getLast?_append, Option.map_or]
  rfl

theorem lastText_eq_none (h : ∀ e ∈ entries, t.locate e.1 ≠ .ok c) : lastText t c entries = none := by
  rw [lastText, List.filter_eq_nil_iff.2 fun e he hc => h e he (leads_iff.1 hc)]
  rfl

theorem isSome_lastText {e : String × String} (he : e ∈ entries) (hc : t.locate e.1 = .ok c) :
    (lastText t c entries).isSome := by
  rw [lastText, Option.isSome_map, List.getLast?_isSome]
  exact List.ne_nil_of_mem (List.mem_filter.2 ⟨he, leads_iff.2 hc⟩)

/-- Paths that lead somewhere lead there in a tree that has grown. -/
theorem lastText_grows (hg : t.Grows t') (h : ∀ e ∈ entries, ∃ c, t.locate e.1 = .ok c) :
    lastText t' c entries = lastText t c entries := by
  have hleads (e : String × String) (he : e ∈ entries) :
      ((t'.locate e.1).toOption == some c) = ((t.locate e.1).toOption == some c) := by
    obtain ⟨place, hplace⟩ := h e he
    rw [hplace, hg.locate hplace]
  rw [lastText, List.filter_congr hleads, lastText]

end

/-- A tree after texts were written at some paths, one after the other: every path leads to a place,
and each place holds the text that was written there last, or what it held before. -/
structure Stored (entries : List (String × String)) (t t' : FileTree) : Prop where
  grows : t.Grows t'
  listed : ∀ e ∈ entries, ∃ c, t'.locate e.1 = .ok c
  holds : ∀ c, t'.file? c = (lastText t' c entries).or (t.file? c)

namespace Stored

variable {t t' t'' : FileTree} {entries entries' : List (String × String)}

/-- A tree that grew without any file being touched. -/
theorem of_files (hg : t.Grows t') (hf : t'.files = t.files) : Stored [] t t' :=
  ⟨hg, by simp, fun c => by rw [FileTree.file?, hf]; rfl⟩

/-- A text is written to the place of its path. -/
theorem of_write {path text : String} (h : t.write path text = .ok t') :
    Stored [(path, text)] t t' := by
  obtain ⟨place, hplace, rfl⟩ := FileTree.write_ok h
  have hgrows := FileTree.Grows.put t place text
  have hleads := hgrows.locate hplace
  refine ⟨hgrows, fun e he => ⟨place, by rwa [List.mem_singleton.1 he]⟩, fun c => ?_⟩
  rw [FileTree.file?_put]
  by_cases hc : c = place
  · simp [lastText, hleads, hc, Except.toOption]
  · rw [if_neg hc, lastText_eq_none fun e he hec => hc ?_, Option.none_or]
    rw [List.mem_singleton.1 he, hleads] at hec
    exact (Except.ok.inj hec).symm

theorem append (h : Stored entries t t') (h' : Stored entries' t' t'') :
    Stored (entries ++ entries') t t'' := by
  refine ⟨h.grows.trans h'.grows, fun e he => ?_, fun c => ?_⟩
  · rcases List.mem_append.1 he with he | he
    · exact (h.listed e he).imp fun _ hc => h'.grows.locate hc
    · exact h'.listed e he
  · rw [h'.holds, h.holds, lastText_append, lastText_grows h'.grows h.listed, Option.or_assoc]

theorem kept (h : Stored entries t t') {c : String} (hc : ∀ e ∈ entries, t'.locate e.1 ≠ .ok c) :
    t'.file? c = t.file? c := by
  rw [h.holds, lastText_eq_none hc, Option.none_or]

theorem isSome (h : Stored entries t t') {e : String × String} (he : e ∈ entries) :
    ∃ c, t'.locate e.1 = .ok c ∧ (t'.file? c).isSome := by
  obtain ⟨c, hc⟩ := h.listed e he
  refine ⟨c, hc, ?_⟩
  rw [h.holds, Option.isSome_or, isSome_lastText he hc, Bool.true_or]

end Stored

/-- A step that writes texts at some paths with a result that satisfies `R`, or that fails in the
storage. -/
def Stores (x : Writing α) (entries : List (String × String)) (R : α → Prop) : Prop :=
  ∀ d, match x d with
    | .ok a d' => Stored entries d.files d'.files ∧ R a
    | .error e _ => e.isStorage = true

namespace Stores

variable {x : Writing α} {f : α → Writing β} {R : α → Prop} {S : β → Prop}
  {entries entries' : List (String × String)}

theorem pure {a : α} (h : R a) : Stores (Pure.pure a) [] R :=
  fun _ => ⟨.of_files (.refl _) rfl, h⟩

theorem bind (h : x.Stores entries R) (hf : ∀ a, R a → (f a).Stores entries' S) :
    (x >>= f).Stores (entries ++ entries') S := by
  intro d
  have hx := h d
  simp only [Bind.bind, EStateM.bind]
  cases hxd : x d with
  | error e d₁ =>
    rw [hxd] at hx
    exact hx
  | ok a d₁ =>
    rw [hxd] at hx
    have hfa := hf a hx.2 d₁
    dsimp only
    cases hfd : f a d₁ with
    | error e d₂ =>
      rw [hfd] at hfa
      exact hfa
    | ok b d₂ =>
      rw [hfd] at hfa
      exact ⟨hx.1.append hfa.1, hfa.2⟩

theorem of_ok (h : x.Stores entries R) {d d' : Desk} {a : α} (hr : x d = .ok a d') :
    Stored entries d.files d'.files := by
  have hx := h d
  rw [hr] at hx
  exact hx.1

end Stores

theorem get_apply (d : Desk) : (get : Writing Desk) d = .ok d d := rfl

theorem makeOutputDir_stores (dir : String) : (makeOutputDir dir).Stores [] fun _ => True := by
  intro d
  simp only [makeOutputDir, Bind.bind, EStateM.bind, get_apply]
  cases h : d.files.ensureDir dir with
  | error e => rfl
  | ok t =>
    obtain ⟨hgrows, hfiles⟩ := FileTree.ensureDir_ok h
    exact ⟨.of_files hgrows hfiles, trivial⟩

theorem writeFile_stores (path text : String) :
    (writeFile path text).Stores [(path, text)] fun _ => True := by
  intro d
  simp only [writeFile, Bind.bind, EStateM.bind, get_apply]
  cases hdir : d.files.ensureDir (Path.parent path) with
  | error e => rfl
  | ok t =>
    obtain ⟨hgrows, hfiles⟩ := FileTree.ensureDir_ok hdir
    cases hwrite : t.write path text with
    | error e =>
      simp only [hwrite]
      rfl
    | ok t' =>
      simp only [hwrite]
      exact ⟨(Stored.of_files hgrows hfiles).append (.of_write hwrite), trivial⟩

/-- What is written for a file. -/
def entry (dir : String) (f : OutputFile) : String × String := (outputPath dir f, f.text)

theorem writeFiles_stores (dir : String) (files : List OutputFile) :
    (writeFiles dir files).Stores (files.map (entry dir)) fun _ => True := by
  induction files with
  | nil => exact .pure trivial
  | cons f files ih => exact .bind (writeFile_stores _ _) fun _ _ => ih

/-- A design whose files are collected is written with the result that lists their paths. -/
theorem writing_stores (dir : String) (files : List OutputFile) (top : Nat) :
    Stores (do
      makeOutputDir dir
      writeFiles dir files
      Writing.lint none
      let paths := files.map (outputPath dir)
      return (⟨paths.getD top "", paths⟩ : Written))
      (files.map (entry dir))
      (· = ⟨(files.map (outputPath dir)).getD top "", files.map (outputPath dir)⟩) := by
  have hlint : (Writing.lint none).Stores [] fun _ => True := .pure trivial
  have hwritten := (makeOutputDir_stores dir).bind fun _ _ => (writeFiles_stores dir files).bind
    fun _ _ => hlint.bind fun _ _ => Stores.pure (R := fun w : Written =>
      w = ⟨(files.map (outputPath dir)).getD top "", files.map (outputPath dir)⟩) rfl
  simpa only [List.nil_append, List.append_nil] using hwritten

/-- The writing begins when everything is collected. -/
theorem Prepares.bind_stores {x : Writing α} {f : α → Writing β} {R : α → Prop}
    {entries : α → List (String × String)} {S : α → β → Prop} (h : x.Prepares R)
    (hf : ∀ a, R a → (f a).Stores (entries a) (S a)) (d : Desk) :
    match (x >>= f) d with
    | .ok b d' => ∃ a d₁, x d = .ok a d₁ ∧ Stored (entries a) d.files d'.files ∧ S a b
    | .error e d' => e.isStorage = false → d'.files = d.files := by
  have hx := h d
  simp only [Bind.bind, EStateM.bind]
  cases hxd : x d with
  | error e d₁ =>
    rw [hxd] at hx
    exact fun _ => hx
  | ok a d₁ =>
    rw [hxd] at hx
    have hfa := hf a hx.2 d₁
    dsimp only
    cases hfd : f a d₁ with
    | error e d₂ =>
      rw [hfd] at hfa
      intro he
      rw [hfa] at he
      cases he
    | ok b d₂ =>
      rw [hfd, hx.1] at hfa
      exact ⟨a, d₁, rfl, hfa⟩

end Writing

end TaskLoom
