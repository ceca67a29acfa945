import TaskLoom.Proofs.Description.Decoding
import Mathlib.Data.List.Perm.Basic

/-!
# The order of members

`Value.Reordered`: two trees that differ in the order in which the members of their objects are
written.  They have one canonical form (`canonical_of_reordered`), and their numbers can be read
together (`reordered_mapNumbers`).  What a tree is shown as in a message depends on its canonical
form only (`shown_canonical`).
-/

namespace TaskLoom

namespace Value

/-- Trees that differ in the order in which the members of their objects are written. -/
inductive Reordered : Value → Value → Prop where
  | refl (v : Value) : Reordered v v
  | trans {u v w : Value} : Reordered u v → Reordered v w → Reordered u w
  | members {ms ns : List (String × Value)} (hp : ms.Perm ns) : Reordered (.object ms) (.object ns)
  | item {v w : Value} (before after : List Value) : Reordered v w →
      Reordered (.list (before ++ v :: after)) (.list (before ++ w :: after))
  | member {v w : Value} (name : String) (before after : List (String × Value)) : Reordered v w →
      Reordered (.object (before ++ (name, v) :: after)) (.object (before ++ (name, w) :: after))

mutual

/-- The tree with the members of each object in the order of their names. -/
def canonical : Value → Value
  | .list xs => .list (canonicalItems xs)
  | .object ms => .object (Text.sortedBy Prod.fst (canonicalMembers ms))
  | v => v

def canonicalItems : List Value → List Value
  | [] => []
  | v :: vs => canonical v :: canonicalItems vs

def canonicalMembers : List (String × Value) → List (String × Value)
  | [] => []
  | (k, v) :: ms => (k, canonical v) :: canonicalMembers ms

end

theorem canonicalItems_eq_map (vs : List Value) : canonicalItems vs = vs.map canonical := by
  induction vs with
  | nil => rfl
  | cons v vs ih => rw [canonicalItems, ih, List.map_cons]

theorem canonicalMembers_eq_map (ms : List (String × Value)) :
    canonicalMembers ms = ms.map fun m => (m.1, m.2.canonical) := by
  induction ms with
  | nil => rfl
  | cons m ms ih => rw [canonicalMembers, ih, List.map_cons]

theorem names_canonicalMembers (ms : List (String × Value)) :
    (canonicalMembers ms).map Prod.fst = ms.map Prod.fst := by
  rw [canonicalMembers_eq_map, List.map_map]
  rfl

/-- Each of two reordered trees has the canonical form of the other, and repeats no name if the
other repeats none. -/
theorem canonical_of_reordered {v w : Value} (h : v.Reordered w) (hv : v.Distinct) :
    v.canonical = w.canonical ∧ w.Distinct := by
  induction h with
  | refl v => exact ⟨rfl, hv⟩
  | trans _ _ ihuv ihvw =>
    obtain ⟨huv, hv⟩ := ihuv hv
    obtain ⟨hvw, hw⟩ := ihvw hv
    exact ⟨huv.trans hvw, hw⟩
  | @members ms ns hp =>
    cases hv with
    | object hnd hms =>
      refine ⟨?_, .object ((hp.map Prod.fst).nodup_iff.1 hnd) fun n hn => hms n (hp.mem_iff.2 hn)⟩
      have hp' : (canonicalMembers ms).Perm (canonicalMembers ns) := by
        rw [canonicalMembers_eq_map, canonicalMembers_eq_map]
        exact hp.map _
      rw [canonical, canonical, Text.sortedBy_of_perm (names_canonicalMembers ms ▸ hnd) hp']
  | item before after _ ih =>
    cases hv with
    | list hvs =>
      simp only [List.forall_mem_append, List.forall_mem_cons] at hvs
      obtain ⟨hvw, hw⟩ := ih hvs.2.1
      refine ⟨by simp [canonical, canonicalItems_eq_map, hvw], .list ?_⟩
      rw [List.forall_mem_append, List.forall_mem_cons]
      exact ⟨hvs.1, hw, hvs.2.2⟩
  | member name before after _ ih =>
    cases hv with
    | object hnd hms =>
      simp only [List.forall_mem_append, List.forall_mem_cons] at hms
      obtain ⟨hvw, hw⟩ := ih hms.2.1
      refine ⟨by simp [canonical, canonicalMembers_eq_map, hvw], .object (by simpa using hnd) ?_⟩
      rw [List.forall_mem_append, List.forall_mem_cons]
      exact ⟨hms.1, hw, hms.2.2⟩

/-! ### What is shown of a tree -/

theorem shownMembers_eq_map (ms : List (String × Value)) :
    shownMembers ms = ms.map fun m => (m.1, m.2.shown) := by
  induction ms with
  | nil => rfl
  | cons m ms ih => rw [shownMembers, ih, List.map_cons]

theorem sortedBy_shownMembers (ms : List (String × Value)) :
    Text.sortedBy Prod.fst (shownMembers ms) =
      (Text.sortedBy Prod.fst ms).map fun m => (m.1, m.2.shown) := by
  rw [shownMembers_eq_map]
  exact Text.sortedBy_map Prod.fst Prod.fst (fun m => (m.1, m.2.shown)) (fun _ => rfl) ms

mutual

theorem shown_canonical : ∀ v : Value, v.canonical.shown = v.shown
  | .null => rfl
  | .bool _ => rfl
  | .number _ => rfl
  | .text _ => rfl
  | .list vs => by rw [canonical, shown, shown, shownItems_canonical vs]
  | .object ms => by
    have hsorted : Text.sortedBy Prod.fst
        (shownMembers (Text.sortedBy Prod.fst (canonicalMembers ms))) =
          Text.sortedBy Prod.fst (shownMembers ms) := by
      rw [← shownMembers_canonical ms, sortedBy_shownMembers, sortedBy_shownMembers,
        Text.sortedBy_sortedBy]
    rw [canonical, shown, shown, hsorted]

theorem shownItems_canonical : ∀ vs : List Value, shownItems (canonicalItems vs) = shownItems vs
  | [] => rfl
  | v :: vs => by
    rw [canonicalItems, shownItems, shownItems, shown_canonical v, shownItems_canonical vs]

theorem shownMembers_canonical :
    ∀ ms : List (String × Value), shownMembers (canonicalMembers ms) = shownMembers ms
  | [] => rfl
  | (k, v) :: ms => by
    rw [canonicalMembers, shownMembers, shownMembers, shown_canonical v, shownMembers_canonical ms]

end

/-! ### Reading of numbers -/

section
variable {f : Quantity → Option Quantity}

theorem mapItems?_append (vs ws : List Value) :
    mapItems? f (vs ++ ws) = do return (← mapItems? f vs) ++ (← mapItems? f ws) := by
  induction vs with
  | nil => simp [mapItems?]
  | cons v vs ih => simp [mapItems?, ih, Option.bind_assoc]

theorem mapMembers?_append (ms ns : List (String × Value)) :
    mapMembers? f (ms ++ ns) = do return (← mapMembers? f ms) ++ (← mapMembers? f ns) := by
  induction ms with
  | nil => simp [mapMembers?]
  | cons m ms ih => simp [mapMembers?, ih, Option.bind_assoc]

/-- A member with its numbers read. -/
def Renumbered (f : Quantity → Option Quantity) (m n : String × Value) : Prop :=
  m.1 = n.1 ∧ mapNumbers? f m.2 = some n.2

theorem mapMembers?_eq_some {ms ns : List (String × Value)} :
    mapMembers? f ms = some ns ↔ List.Forall₂ (Renumbered f) ms ns := by
  induction ms generalizing ns with
  | nil => simp [mapMembers?, eq_comm]
  | cons m ms ih =>
    obtain ⟨k, v⟩ := m
    simp only [mapMembers?, Option.bind_eq_bind, Option.bind_eq_some_iff, Option.pure_def,
      Option.some.injEq, List.forall₂_cons_left_iff, Renumbered, ← ih]
    constructor
    · rintro ⟨w, hw, ns', hns, rfl⟩
      exact ⟨(k, w), ns', ⟨rfl, hw⟩, hns, rfl⟩
    · rintro ⟨⟨k', w⟩, ns', ⟨hk, hw⟩, hns, rfl⟩
      cases hk
      exact ⟨w, hw, ns', hns, rfl⟩

theorem names_of_renumbered {ms ns : List (String × Value)}
    (h : List.Forall₂ (Renumbered f) ms ns) : ms.map Prod.fst = ns.map Prod.fst := by
  induction h with
  | nil => rfl
  | cons hm _ ih => rw [List.map_cons, List.map_cons, hm.1, ih]

theorem mapMembers?_of_perm {ms ns ns' : List (String × Value)} (hp : ms.Perm ns)
    (h : mapMembers? f ns = some ns') : ∃ ms', mapMembers? f ms = some ms' ∧ ms'.Perm ns' := by
  obtain ⟨ms', hms, hp'⟩ := List.perm_comp_forall₂ hp (mapMembers?_eq_some.1 h)
  exact ⟨ms', mapMembers?_eq_some.2 hms, hp'⟩

theorem mapItems?_eq_some {vs ws : List Value} :
    mapItems? f vs = some ws ↔ List.Forall₂ (fun v w => mapNumbers? f v = some w) vs ws := by
  induction vs generalizing ws with
  | nil => simp [mapItems?, eq_comm]
  | cons v vs ih =>
    simp only [mapItems?, Option.bind_eq_bind, Option.bind_eq_some_iff, Option.pure_def,
      Option.some.injEq, List.forall₂_cons_left_iff, ← ih]
    constructor
    · rintro ⟨w, hw, ws', hws, rfl⟩
      exact ⟨w, ws', hw, hws, rfl⟩
    · rintro ⟨w, ws', hw, hws, rfl⟩
      exact ⟨w, hw, ws', hws, rfl⟩

/-- A tree with its numbers read, taken apart. -/
inductive Read (f : Quantity → Option Quantity) : Value → Value → Prop where
  | null : Read f .null .null
  | bool (b : Bool) : Read f (.bool b) (.bool b)
  | number (n m : Quantity) : Read f (.number n) (.number m)
  | text (s : String) : Read f (.text s) (.text s)
  | list {vs ws : List Value} (h : List.Forall₂ (fun v w => mapNumbers? f v = some w) vs ws) :
      Read f (.list vs) (.list ws)
  | object {ms ns : List (String × Value)} (h : List.Forall₂ (Renumbered f) ms ns) :
      Read f (.object ms) (.object ns)

theorem read_of_mapNumbers {v w : Value} (h : mapNumbers? f v = some w) : Read f v w := by
  cases v with
  | null => exact Option.some.inj h ▸ .null
  | bool b => exact Option.some.inj h ▸ .bool b
  | text s => exact Option.some.inj h ▸ .text s
  | number n =>
    obtain ⟨m, -, rfl⟩ := Option.map_eq_some_iff.1 h
    exact .number n m
  | list vs =>
    obtain ⟨ws, hws, rfl⟩ := Option.map_eq_some_iff.1 h
    exact .list (mapItems?_eq_some.1 hws)
  | object ms =>
    obtain ⟨ns, hns, rfl⟩ := Option.map_eq_some_iff.1 h
    exact .object (mapMembers?_eq_some.1 hns)

theorem Distinct.mapNumbers {v w : Value} (hv : v.Distinct) (h : mapNumbers? f v = some w) :
    w.Distinct := by
  induction hv generalizing w with
  | null => cases read_of_mapNumbers h; exact .null
  | bool b => cases read_of_mapNumbers h; exact .bool b
  | number n => cases read_of_mapNumbers h; exact .number _
  | text s => cases read_of_mapNumbers h; exact .text s
  | @list vs _ ih =>
    cases read_of_mapNumbers h with
    | list hvs =>
      refine .list fun w hw => ?_
      obtain ⟨v, hv, hvw⟩ := exists_of_forall₂ hvs hw
      exact ih v hv hvw
  | @object ms hnd _ ih =>
    cases read_of_mapNumbers h with
    | object hms =>
      refine .object (names_of_renumbered hms ▸ hnd) fun n hn => ?_
      obtain ⟨m, hm, hmn⟩ := exists_of_forall₂ hms hn
      exact ih m hm hmn.2

/-! What the reading of numbers makes of one reordering, case by case. -/

theorem rel_members {ms ns : List (String × Value)} (hp : ms.Perm ns) :
    Option.Rel Reordered (mapNumbers? f (.object ms)) (mapNumbers? f (.object ns)) := by
  simp only [mapNumbers?]
  cases hns : mapMembers? f ns with
  | some ns' =>
    obtain ⟨ms', hms, hp'⟩ := mapMembers?_of_perm hp hns
    rw [hms]
    exact .some (.members hp')
  | none =>
    cases hms : mapMembers? f ms with
    | none => exact .none
    | some ms' =>
      obtain ⟨ns', hns', -⟩ := mapMembers?_of_perm hp.symm hms
      cases hns.symm.trans hns'

theorem rel_item {v w : Value} (before after : List Value)
    (h : Option.Rel Reordered (mapNumbers? f v) (mapNumbers? f w)) :
    Option.Rel Reordered (mapNumbers? f (.list (before ++ v :: after)))
      (mapNumbers? f (.list (before ++ w :: after))) := by
  simp only [mapNumbers?, mapItems?_append, mapItems?]
  cases mapItems? f before with
  | none => exact .none
  | some before =>
    revert h
    generalize mapNumbers? f v = a, mapNumbers? f w = b
    intro h
    cases h with
    | none => exact .none
    | some h =>
      cases mapItems? f after with
      | none => exact .none
      | some after => exact .some (.item before after h)

theorem rel_member {v w : Value} (name : String) (before after : List (String × Value))
    (h : Option.Rel Reordered (mapNumbers? f v) (mapNumbers? f w)) :
    Option.Rel Reordered (mapNumbers? f (.object (before ++ (name, v) :: after)))
      (mapNumbers? f (.object (before ++ (name, w) :: after))) := by
  simp only [mapNumbers?, mapMembers?_append, mapMembers?]
  cases mapMembers? f before with
  | none => exact .none
  | some before =>
    revert h
    generalize mapNumbers? f v = a, mapNumbers? f w = b
    intro h
    cases h with
    | none => exact .none
    | some h =>
      cases mapMembers? f after with
      | none => exact .none
      | some after => exact .some (.member name before after h)

theorem rel_trans {a b c : Option Value} (hab : Option.Rel Reordered a b)
    (hbc : Option.Rel Reordered b c) : Option.Rel Reordered a c := by
  cases hab with
  | none => exact hbc
  | some hab =>
    cases hbc with
    | some hbc => exact .some (.trans hab hbc)

theorem reordered_mapNumbers {v w : Value} (h : v.Reordered w) :
    Option.Rel Reordered (mapNumbers? f v) (mapNumbers? f w) := by
  induction h with
  | refl v =>
    cases mapNumbers? f v with
    | none => exact .none
    | some v' => exact .some (.refl v')
  | trans _ _ ihuv ihvw => exact rel_trans ihuv ihvw
  | members hp => exact rel_members hp
  | item before after _ ih => exact rel_item before after ih
  | member name before after _ ih => exact rel_member name before after ih

end

end Value

namespace Description

theorem isRoot_of_reordered {v w : Value} (h : v.Reordered w) : isRoot v = isRoot w := by
  induction h with
  | trans _ _ ihuv ihvw => exact ihuv.trans ihvw
  | _ => rfl

theorem tree_of_reordered {s s' : String} {v w : Value} (hs : Value.ofText? s = some v)
    (hs' : Value.ofText? s' = some w) (h : v.Reordered w) (style : NumberStyle) :
    Option.Rel Value.Reordered (tree? style s) (tree? style s') := by
  have hrel := Value.reordered_mapNumbers (f := style.apply) h
  rw [tree?, tree?, hs, hs', Option.bind_some, Option.bind_some]
  revert hrel
  generalize Value.mapNumbers? style.apply v = a, Value.mapNumbers? style.apply w = b
  intro hrel
  cases hrel with
  | none => exact .none
  | some hvw =>
    rw [Option.filter_some, Option.filter_some, isRoot_of_reordered hvw]
    split
    · exact .some hvw
    · exact .none

end Description

end TaskLoom
