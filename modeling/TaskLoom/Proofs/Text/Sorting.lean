import TaskLoom.Text.Basic
import Mathlib.Data.List.Sort
import Mathlib.Data.List.Nodup

/-!
# Sorting by name

`Text.sortedBy` is insertion sort (`sortedBy_eq_insertionSort`), so it permutes its items and puts
their names in order.  Where the names are all different the result depends only on which items
there are (`sortedBy_of_perm`): this is what makes a table that is sorted before it is gone over
independent of the order in which it was filled.
-/

namespace TaskLoom

/-- Names in their order, each of them once. -/
def Ascending (names : List String) : Prop := names.Pairwise (· < ·)

theorem ascending_map {α : Type} {f : α → String} {xs : List α} :
    Ascending (xs.map f) ↔ xs.Pairwise fun a b => f a < f b := List.pairwise_map

theorem Ascending.eq_of_perm {α : Type} {name : α → String} {xs ys : List α}
    (hx : Ascending (xs.map name)) (hy : Ascending (ys.map name)) (hp : xs.Perm ys) : xs = ys :=
  hp.eq_of_pairwise (fun _ _ _ _ hab hba => absurd (String.lt_trans hab hba) (String.lt_irrefl _))
    (ascending_map.1 hx) (ascending_map.1 hy)

namespace Text

variable {α β : Type} {name : α → String} {xs ys : List α}

theorem sortedBy_eq_insertionSort (name : α → String) (xs : List α) :
    sortedBy name xs = xs.insertionSort fun a b => name a ≤ name b := by
  have hinsert (x : α) (ys : List α) :
      insertBy name x ys = ys.orderedInsert (fun a b => name a ≤ name b) x := by
    induction ys with
    | nil => rfl
    | cons y ys ih => rw [insertBy, List.orderedInsert, ih]
  induction xs with
  | nil => rfl
  | cons x xs ih => rw [sortedBy, List.insertionSort_cons, ih, hinsert]

theorem perm_sortedBy (name : α → String) (xs : List α) : (sortedBy name xs).Perm xs := by
  rw [sortedBy_eq_insertionSort]
  exact List.perm_insertionSort _ xs

@[simp] theorem mem_sortedBy {x : α} : x ∈ sortedBy name xs ↔ x ∈ xs :=
  (perm_sortedBy name xs).mem_iff

@[simp] theorem length_sortedBy : (sortedBy name xs).length = xs.length :=
  (perm_sortedBy name xs).length_eq

@[simp] theorem sortedBy_eq_nil : sortedBy name xs = [] ↔ xs = [] := by
  rw [← List.length_eq_zero_iff, length_sortedBy, List.length_eq_zero_iff]

theorem pairwise_sortedBy (name : α → String) (xs : List α) :
    (sortedBy name xs).Pairwise fun a b => name a ≤ name b := by
  have htotal : Std.Total fun a b : α => name a ≤ name b := ⟨fun a b => String.le_total _ _⟩
  have htrans : IsTrans α fun a b => name a ≤ name b := ⟨fun a b c => String.le_trans⟩
  rw [sortedBy_eq_insertionSort]
  exact List.pairwise_insertionSort _ xs

theorem nodup_sortedBy (h : (xs.map name).Nodup) : ((sortedBy name xs).map name).Nodup :=
  ((perm_sortedBy name xs).map name).nodup_iff.2 h

theorem ascending_sortedBy (h : (xs.map name).Nodup) : Ascending ((sortedBy name xs).map name) := by
  have hne := List.pairwise_map.1 (nodup_sortedBy h)
  refine ascending_map.2 ((pairwise_sortedBy name xs).imp₂ (fun a b hle hne => ?_) hne)
  exact Std.lt_of_le_of_ne hle hne

/-- The order in which items are given does not matter, as long as their names are different. -/
theorem sortedBy_of_perm (h : (xs.map name).Nodup) (hp : xs.Perm ys) :
    sortedBy name xs = sortedBy name ys := by
  refine (ascending_sortedBy h).eq_of_perm (ascending_sortedBy ((hp.map name).nodup_iff.1 h)) ?_
  exact (perm_sortedBy name xs).trans (hp.trans (perm_sortedBy name ys).symm)

theorem sortedBy_sortedBy (name : α → String) (xs : List α) :
    sortedBy name (sortedBy name xs) = sortedBy name xs := by
  rw [sortedBy_eq_insertionSort name (sortedBy name xs)]
  exact (pairwise_sortedBy name xs).insertionSort_eq

/-- Sorting keeps the order of equal names, so it keeps the first item of each name. -/
theorem find?_sortedBy (n : String) :
    (sortedBy name xs).find? (name · == n) = xs.find? (name · == n) := by
  have hinsert (x : α) (ys : List α) :
      (insertBy name x ys).find? (name · == n) = (x :: ys).find? (name · == n) := by
    induction ys with
    | nil => rfl
    | cons y ys ih =>
      rw [insertBy]
      split
      · rfl
      · rename_i hlt
        by_cases hy : name y = n
        · -- the two names differ here, so they do not compete
          have hx : ¬ name x = n := fun hx => hlt (hx.trans hy.symm ▸ String.le_refl _)
          simp [hx, hy]
        · rw [List.find?_cons_of_neg (by simpa using hy), ih]
          by_cases hx : name x = n <;> simp [hx, hy]
  induction xs with
  | nil => rfl
  | cons x xs ih => rw [sortedBy, hinsert, List.find?_cons, List.find?_cons, ih]

theorem sortedBy_map (name : α → String) (name' : β → String) (f : α → β)
    (hf : ∀ x, name' (f x) = name x) (xs : List α) :
    sortedBy name' (xs.map f) = (sortedBy name xs).map f := by
  have hinsert (x : α) (ys : List α) :
      insertBy name' (f x) (ys.map f) = (insertBy name x ys).map f := by
    induction ys with
    | nil => rfl
    | cons y ys ih =>
      rw [List.map_cons, insertBy, insertBy, hf, hf, ih]
      split <;> rfl
  induction xs with
  | nil => rfl
  | cons x xs ih => rw [List.map_cons, sortedBy, sortedBy, ih, hinsert]

/-- The names of sorted items are the sorted names. -/
theorem map_sortedBy (name : α → String) (xs : List α) :
    (sortedBy name xs).map name = sorted (xs.map name) :=
  (sortedBy_map name id name (fun _ => rfl) xs).symm

theorem sorted_of_perm {names names' : List String} (hp : names.Perm names') :
    sorted names = sorted names' := by
  refine ((perm_sortedBy id names).trans (hp.trans (perm_sortedBy id names').symm)).eq_of_pairwise
    (fun _ _ _ _ => String.le_antisymm) (pairwise_sortedBy id names) (pairwise_sortedBy id names')

end Text

/-- The same entries up to `R`, in whatever order. -/
def SameEntries {α β : Type} (R : α → β → Prop) (xs : List α) (ys : List β) : Prop :=
  ∃ zs, xs.Perm zs ∧ List.Forall₂ R zs ys

theorem exists_of_forall₂ {α β : Type} {R : α → β → Prop} {xs : List α} {ys : List β} {y : β}
    (h : List.Forall₂ R xs ys) (hy : y ∈ ys) : ∃ x ∈ xs, R x y := by
  induction h with
  | nil => cases hy
  | cons hxy _ ih =>
    rcases List.mem_cons.1 hy with rfl | hy
    · exact ⟨_, List.mem_cons_self, hxy⟩
    · obtain ⟨x, hx, hr⟩ := ih hy
      exact ⟨x, List.mem_cons_of_mem _ hx, hr⟩

namespace SameEntries

variable {α β γ δ : Type} {R : α → β → Prop} {S : γ → δ → Prop} {xs xs' : List α} {ys ys' : List β}

theorem perm {xs ys : List α} (h : SameEntries Eq xs ys) : xs.Perm ys := by
  obtain ⟨zs, hp, hz⟩ := h
  rw [List.forall₂_eq_eq_eq] at hz
  exact hz ▸ hp

theorem nil : SameEntries R [] [] := ⟨[], .nil, .nil⟩

theorem append (h : SameEntries R xs ys) (h' : SameEntries R xs' ys') :
    SameEntries R (xs ++ xs') (ys ++ ys') := by
  obtain ⟨zs, hp, hz⟩ := h
  obtain ⟨zs', hp', hz'⟩ := h'
  exact ⟨zs ++ zs', hp.append hp', List.rel_append hz hz'⟩

theorem map {f : α → γ} {g : β → δ} (h : SameEntries R xs ys) (hfg : ∀ x y, R x y → S (f x) (g y)) :
    SameEntries S (xs.map f) (ys.map g) := by
  obtain ⟨zs, hp, hz⟩ := h
  refine ⟨zs.map f, hp.map f, ?_⟩
  rw [List.forall₂_map_left_iff, List.forall₂_map_right_iff]
  exact hz.imp fun x y => hfg x y

theorem filter {f : α → Bool} {g : β → Bool} (h : SameEntries R xs ys)
    (hfg : ∀ x y, R x y → f x = g y) : SameEntries R (xs.filter f) (ys.filter g) := by
  obtain ⟨zs, hp, hz⟩ := h
  refine ⟨zs.filter f, hp.filter f, ?_⟩
  clear hp
  induction hz with
  | nil => exact .nil
  | @cons x y _ _ hxy _ ih =>
    rw [List.filter_cons, List.filter_cons, hfg x y hxy]
    split
    · exact .cons hxy ih
    · exact ih

theorem flatMap_perm {f : α → List γ} {g : β → List γ} (h : SameEntries R xs ys)
    (hfg : ∀ x y, R x y → (f x).Perm (g y)) : (xs.flatMap f).Perm (ys.flatMap g) := by
  obtain ⟨zs, hp, hz⟩ := h
  refine (hp.flatMap_right f).trans ?_
  clear hp
  induction hz with
  | nil => exact .nil
  | cons hxy _ ih =>
    rw [List.flatMap_cons, List.flatMap_cons]
    exact (hfg _ _ hxy).append ih

theorem map_perm {f : α → γ} {g : β → γ} (h : SameEntries R xs ys)
    (hfg : ∀ x y, R x y → f x = g y) : (xs.map f).Perm (ys.map g) :=
  (h.map (S := Eq) hfg).perm

/-- Sorting brings the entries that belong together to the same positions. -/
theorem sortedBy {name : α → String} {name' : β → String} (h : SameEntries R xs ys)
    (hname : ∀ x y, R x y → name x = name' y) (hnd : (xs.map name).Nodup) :
    List.Forall₂ R (Text.sortedBy name xs) (Text.sortedBy name' ys) := by
  have hinsert {x : α} {y : β} {xs : List α} {ys : List β} (hxy : R x y)
      (h : List.Forall₂ R xs ys) :
      List.Forall₂ R (Text.insertBy name x xs) (Text.insertBy name' y ys) := by
    induction h with
    | nil => exact .cons hxy .nil
    | @cons a b _ _ hab h ih =>
      rw [Text.insertBy, Text.insertBy, hname x y hxy, hname a b hab]
      split
      · exact .cons hxy (.cons hab h)
      · exact .cons hab ih
  obtain ⟨zs, hp, hz⟩ := h
  rw [Text.sortedBy_of_perm hnd hp]
  clear hp hnd
  induction hz with
  | nil => exact .nil
  | cons hxy _ ih => exact hinsert hxy ih

end SameEntries

end TaskLoom
