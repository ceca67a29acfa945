import TaskLoom.Files.Tree

/-!
# File trees grow

Making directories and writing files only adds places to a tree (`FileTree.Grows`), so a path that
leads somewhere keeps leading there (`Grows.locate`).  Making directories touches no file
(`files_of_ensureDir`), and writing touches the file at the place of its path only
(`put_of_write`, `file?_put`).
-/

namespace TaskLoom.FileTree

/-- Every directory of `t` is one of `t'`, which is of the same kind. -/
structure Grows (t t' : FileTree) : Prop where
  storage : t'.storage = t.storage
  isDir : ∀ p, t.isDir p = true → t'.isDir p = true

namespace Grows

variable {t t' t'' : FileTree}

theorem refl (t : FileTree) : t.Grows t := ⟨rfl, fun _ h => h⟩

theorem trans (h : t.Grows t') (h' : t'.Grows t'') : t.Grows t'' :=
  ⟨h'.storage.trans h.storage, fun p hp => h'.isDir p (h.isDir p hp)⟩

theorem follow (h : t.Grows t') {dir c : String} {es : List String}
    (hf : t.follow dir es = .ok c) : t'.follow dir es = .ok c := by
  induction es generalizing dir with
  | nil => exact hf
  | cons e es ih =>
    rw [FileTree.follow] at hf ⊢
    split at hf
    · cases hf
    · rename_i hdir
      rw [if_neg (by simpa using h.isDir dir (by simpa using hdir))]
      exact ih hf

/-- A path keeps leading to the same place. -/
theorem locate (h : t.Grows t') {p c : String} (hl : t.locate p = .ok c) : t'.locate p = .ok c := by
  unfold FileTree.locate at hl ⊢
  rw [h.storage]
  cases hs : t.storage with
  | memory =>
    rw [hs] at hl
    rw [← hl, key, key, h.storage]
  | disk =>
    simp only [hs] at hl ⊢
    split at hl
    · rename_i hrooted
      rw [if_pos hrooted]
      exact h.follow hl
    · rename_i hrooted
      rw [if_neg hrooted]
      split at hl
      · cases hl
      · rename_i hempty
        rw [if_neg hempty]
        exact h.follow hl

/-- A tree with the same directories and more files. -/
theorem of_files (hs : t'.storage = t.storage) (hd : t'.dirs = t.dirs)
    (hf : t.files.map Prod.fst ⊆ t'.files.map Prod.fst) : t.Grows t' := by
  refine ⟨hs, fun p hp => ?_⟩
  unfold FileTree.isDir at hp ⊢
  rw [hd]
  rw [Bool.or_eq_true] at hp ⊢
  refine hp.imp_right fun hany => ?_
  obtain ⟨f, hmem, hbelow⟩ := List.any_eq_true.1 hany
  obtain ⟨f', hmem', hname⟩ := List.mem_map.1 (hf (List.mem_map_of_mem hmem))
  exact List.any_eq_true.2 ⟨f', hmem', by rwa [hname]⟩

theorem addDir (t : FileTree) (c : String) : t.Grows (t.addDir c) := by
  unfold FileTree.addDir
  split
  · exact .refl t
  · refine ⟨rfl, fun p hp => ?_⟩
    unfold FileTree.isDir at hp ⊢
    simp only [List.contains_eq_any_beq, List.any_append, Bool.or_eq_true] at hp ⊢
    exact hp.imp_left fun hp => hp.imp (fun hp => hp.imp_right .inl) .inl

theorem put (t : FileTree) (c text : String) : t.Grows (t.put c text) := by
  refine .of_files rfl rfl fun n hn => ?_
  obtain ⟨f, hf, rfl⟩ := List.mem_map.1 hn
  unfold FileTree.put
  simp only
  split
  · rw [List.map_map]
    refine List.mem_map.2 ⟨f, hf, ?_⟩
    by_cases hc : f.1 = c <;> simp [hc]
  · rw [List.map_append]
    exact List.mem_append_left _ hn

end Grows

/-- Putting a text at a place changes that place only. -/
theorem file?_put (t : FileTree) (c text c' : String) :
    (t.put c text).file? c' = if c' = c then some text else t.file? c' := by
  -- putting a text keeps the names
  have hname (f : String × String) : (if f.1 == c then (c, text) else f).1 = f.1 := by
    by_cases h : f.1 = c <;> simp [h]
  unfold put file?
  simp only
  split
  · rename_i hany
    rw [List.find?_map]
    simp only [Function.comp_def, hname]
    by_cases hc : c' = c
    · subst hc
      obtain ⟨f, hf⟩ := Option.isSome_iff_exists.1 (List.find?_isSome.2 (List.any_eq_true.1 hany))
      have hfc : f.1 = c' := by simpa using List.find?_some hf
      simp [hf, hfc]
    · cases hf : t.files.find? (·.1 == c') with
      | none => simp [hc]
      | some f =>
        have hfc : f.1 = c' := by simpa using List.find?_some hf
        simp [hc, hfc]
  · rename_i hany
    rw [List.find?_append]
    by_cases hc : c' = c
    · subst hc
      have hnone : t.files.find? (·.1 == c') = none :=
        List.find?_eq_none.2 fun f hf hfc => hany (List.any_eq_true.2 ⟨f, hf, hfc⟩)
      simp [hnone]
    · have hne : (c == c') = false := by simpa using Ne.symm hc
      simp [hc, hne]

section
variable {t t' : FileTree} {p : String}

theorem makeDir_ok (h : t.makeDir p = .ok t') : t.Grows t' ∧ t'.files = t.files := by
  unfold makeDir at h
  split at h
  · cases h
  split at h
  · cases h
    exact ⟨.refl _, rfl⟩
  split at h
  · cases h
  · rename_i c _ hdir _
    cases h
    exact ⟨.addDir t c, by unfold addDir; split <;> rfl⟩

theorem makeDirs_ok {n : Nat} (h : t.makeDirs n p = .ok t') : t.Grows t' ∧ t'.files = t.files := by
  induction n generalizing p t' with
  | zero =>
    cases h
    exact ⟨.refl _, rfl⟩
  | succ n ih =>
    unfold makeDirs at h
    simp only at h
    split at h
    · cases h
      exact ⟨.refl _, rfl⟩
    split at h
    · cases h
    split at h
    · exact makeDir_ok h
    split at h
    · cases h
    · rename_i t₁ habove
      obtain ⟨hgrows, hfiles⟩ := ih habove
      obtain ⟨hgrows', hfiles'⟩ := makeDir_ok h
      exact ⟨hgrows.trans hgrows', hfiles'.trans hfiles⟩

/-- Making directories touches no file. -/
theorem ensureDir_ok (h : t.ensureDir p = .ok t') : t.Grows t' ∧ t'.files = t.files := by
  unfold ensureDir at h
  split at h
  · cases h
  split at h
  · cases h
    split
    · exact ⟨.refl _, rfl⟩
    · exact ⟨.addDir t _, by unfold addDir; split <;> rfl⟩
  · exact makeDirs_ok h

theorem withoutSlash_of_not_endsWith (h : Text.endsWith p "/" = false) : withoutSlash p = p := by
  have hlast : p.toList.reverse.head? ≠ some '/' := by
    intro hhead
    obtain ⟨rest, hrest⟩ := List.head?_eq_some_iff.1 hhead
    have hp : p.toList = rest.reverse ++ ['/'] := by
      rw [← List.reverse_reverse p.toList, hrest, List.reverse_cons]
    have hend : Text.endsWith p "/" = true := by
      simp [Text.endsWith, hp]
    rw [hend] at h
    cases h
  unfold withoutSlash
  have hdrop : p.toList.reverse.dropWhile (· == '/') = p.toList.reverse := by
    cases hr : p.toList.reverse with
    | nil => rfl
    | cons c cs =>
      rw [hr, List.head?_cons, ne_eq, Option.some.injEq] at hlast
      simp [hlast]
  rw [hdrop, List.reverse_reverse, String.ofList_toList]

/-- A text is written to the place that its path leads to. -/
theorem write_ok {text : String} (h : t.write p text = .ok t') :
    ∃ c, t.locate p = .ok c ∧ t' = t.put c text := by
  unfold write at h
  split at h
  · cases h
  split at h
  · cases h
  rename_i c hc
  cases hs : t.storage with
  | memory =>
    simp only [hs] at h hc
    cases h
    exact ⟨c, hc, rfl⟩
  | disk =>
    simp only [hs] at h hc
    split at h
    · cases h
    split at h
    · cases h
    · rename_i hplace _
      cases h
      rw [Bool.or_eq_true, not_or] at hplace
      rw [if_pos trivial, withoutSlash_of_not_endsWith (by simpa using hplace.2)] at hc
      exact ⟨c, hc, rfl⟩

end

end TaskLoom.FileTree
