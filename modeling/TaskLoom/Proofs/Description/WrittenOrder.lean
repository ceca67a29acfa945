import TaskLoom.Proofs.Description.KeyOrder
import TaskLoom.Proofs.Graph.Rearranged

/-!
# Reading reordered trees

The members of two reordered trees are met in different orders, so what is read from them differs
in the order of its tables and, if they cannot be read, in the order of the faults
(`Reading.Agree`).  It does not differ in anything else (`read_agree`), and so the texts of two
reordered trees describe programs that differ in the order of their tables, or fail in the same way
(`parse_agree`).  This takes a tree in which no record has two names that differ in upper and lower
case only (`Clear`), for else the order decides which of the two members is a field.
-/

namespace TaskLoom

/-! ### Readings that agree -/

namespace Reading

variable {α β γ δ : Type} {R : α → β → Prop} {S : γ → δ → Prop}

/-- What two readings give is related, or both fail with the same faults. -/
inductive Agree (R : α → β → Prop) : Reading α → Reading β → Prop where
  | ok {a : α} {b : β} (h : R a b) : Agree R (.ok a) (.ok b)
  | faulty {fs gs : List Fault} (h : fs.Perm gs) : Agree R (.faulty fs) (.faulty gs)

theorem Agree.refl {R : α → α → Prop} (h : ∀ a, R a a) (r : Reading α) : Agree R r r := by
  cases r with
  | ok a => exact .ok (h a)
  | faulty fs => exact .faulty (.refl fs)

theorem Agree.map {k : α → γ} {l : β → δ} {r : Reading α} {s : Reading β} (h : Agree R r s)
    (hk : ∀ a b, R a b → S (k a) (l b)) : Agree S (k <$> r) (l <$> s) := by
  cases h with
  | ok h => exact .ok (hk _ _ h)
  | faulty h => exact .faulty h

theorem Agree.seq {k : Reading (α → γ)} {l : Reading (β → δ)} {r : Reading α} {s : Reading β}
    (hk : Agree (fun k l => ∀ a b, R a b → S (k a) (l b)) k l) (h : Agree R r s) :
    Agree S (k <*> r) (l <*> s) := by
  cases hk with
  | ok hk =>
    cases h with
    | ok h => exact .ok (hk _ _ h)
    | faulty h => exact .faulty h
  | faulty hf =>
    cases h with
    | ok h => exact .faulty hf
    | faulty h => exact .faulty (hf.append h)

theorem Agree.trans {T : α → γ → Prop} {S : β → γ → Prop} {r : Reading α} {s : Reading β}
    {t : Reading γ} (hr : Agree R r s) (hs : Agree S s t) (h : ∀ a b c, R a b → S b c → T a c) :
    Agree T r t := by
  cases hr with
  | ok hr =>
    cases hs with
    | ok hs => exact .ok (h _ _ _ hr hs)
  | faulty hr =>
    cases hs with
    | faulty hs => exact .faulty (hr.trans hs)

theorem all_agree {rs : List (Reading α)} {ss : List (Reading β)}
    (h : List.Forall₂ (Agree R) rs ss) : Agree (List.Forall₂ R) (all rs) (all ss) := by
  induction h with
  | nil => exact .ok .nil
  | cons hr _ ih => exact .seq (.map hr fun a b hab as bs hs => .cons hab hs) ih

theorem all_perm {rs ss : List (Reading α)} (hp : rs.Perm ss) :
    Agree List.Perm (all rs) (all ss) := by
  induction hp with
  | nil => exact .ok .nil
  | cons r _ ih =>
    refine .seq (.map (R := Eq) (.refl (fun _ => rfl) r) ?_) ih
    rintro a _ rfl as bs hs
    exact hs.cons a
  | swap r s rs =>
    -- the faults of the first two readings change places with them
    rw [all, all, all, all]
    cases r <;> cases s <;> cases all rs <;>
      first
        | exact .ok (.swap _ _ _)
        | exact .faulty (.refl _)
        | exact .faulty List.perm_append_comm
        | exact .faulty (List.perm_append_comm_assoc _ _ _)
  | trans _ _ ih ih' => exact ih.trans ih' fun _ _ _ => List.Perm.trans

theorem all_sameEntries {rs : List (Reading α)} {ss : List (Reading β)}
    (h : SameEntries (Agree R) rs ss) : Agree (SameEntries R) (all rs) (all ss) := by
  obtain ⟨ts, hp, ht⟩ := h
  exact (all_perm hp).trans (all_agree ht) fun _ bs _ hab hbc => ⟨bs, hab, hbc⟩

end Reading

/-! ### Trees with one canonical form -/

namespace Value

/-- Trees with one canonical form. -/
def Alike (v w : Value) : Prop := v.canonical = w.canonical

/-- Members of one name with alike values. -/
def AlikeMember (m n : String × Value) : Prop := m.1 = n.1 ∧ m.2.Alike n.2

/-- Alike trees, taken apart. -/
inductive Matched : Value → Value → Prop where
  | null : Matched .null .null
  | bool (b : Bool) : Matched (.bool b) (.bool b)
  | number (n : Quantity) : Matched (.number n) (.number n)
  | text (s : String) : Matched (.text s) (.text s)
  | list {vs ws : List Value} (h : List.Forall₂ Alike vs ws) : Matched (.list vs) (.list ws)
  | object {ms ns : List (String × Value)} (h : SameEntries AlikeMember ms ns) :
      Matched (.object ms) (.object ns)

theorem sameEntries_of_canonical {ms ns : List (String × Value)}
    (h : Text.sortedBy Prod.fst (canonicalMembers ms) =
      Text.sortedBy Prod.fst (canonicalMembers ns)) : SameEntries AlikeMember ms ns := by
  let single (m : String × Value) : String × Value := (m.1, m.2.canonical)
  have hp : (ms.map single).Perm (ns.map single) := by
    rw [← canonicalMembers_eq_map, ← canonicalMembers_eq_map]
    exact (Text.perm_sortedBy Prod.fst _).symm.trans (h ▸ Text.perm_sortedBy Prod.fst _)
  have hcomp : Relation.Comp (List.Forall₂ fun m x => single m = x) List.Perm ms (ns.map single) :=
    ⟨ms.map single, List.forall₂_map_right_iff.2 (List.forall₂_same.2 fun _ _ => rfl), hp⟩
  rw [List.forall₂_comp_perm_eq_perm_comp_forall₂] at hcomp
  obtain ⟨zs, hz, hzs⟩ := hcomp
  exact ⟨zs, hz, (List.forall₂_map_right_iff.1 hzs).imp fun _ _ => Prod.mk.inj⟩

theorem Alike.matched {v w : Value} (h : v.Alike w) : Matched v w := by
  unfold Alike at h
  cases v <;> cases w <;> simp only [canonical, reduceCtorEq, bool.injEq, number.injEq, text.injEq,
    list.injEq, object.injEq] at h
  case null.null => exact .null
  case bool.bool => exact h ▸ .bool _
  case number.number => exact h ▸ .number _
  case text.text => exact h ▸ .text _
  case list.list vs ws =>
    rw [canonicalItems_eq_map, canonicalItems_eq_map, ← List.forall₂_eq_eq_eq,
      List.forall₂_map_left_iff, List.forall₂_map_right_iff] at h
    exact .list h
  case object.object ms ns => exact .object (sameEntries_of_canonical h)

theorem Alike.shown {v w : Value} (h : v.Alike w) : v.shown = w.shown := by
  rw [← shown_canonical v, h, shown_canonical]

theorem Alike.readText {v w : Value} (h : v.Alike w) : v.readText = w.readText := by
  cases h.matched <;> rfl

theorem Alike.readInt {v w : Value} (h : v.Alike w) : v.readInt = w.readInt := by
  cases h.matched <;> rfl

/-- A record: no two of its names differ in upper and lower case only. -/
def ClearRecord (fields : List (String × Value) → Prop) : Value → Prop
  | .null => fields []
  | .object ms => (ms.map fun m => foldedName m.1).Nodup ∧ fields ms
  | _ => True

inductive ClearTable (entry : Value → Prop) : Value → Prop where
  | null : ClearTable entry .null
  | bool (b : Bool) : ClearTable entry (.bool b)
  | number (n : Quantity) : ClearTable entry (.number n)
  | text (s : String) : ClearTable entry (.text s)
  | object {ms : List (String × Value)} (h : ∀ m ∈ ms, entry m.2) : ClearTable entry (.object ms)
  | list {vs : List Value} (h : ∀ v ∈ vs, ClearTable entry v) : ClearTable entry (.list vs)

def ClearList (item : Value → Prop) : Value → Prop
  | .null => True
  | .list vs => ∀ v ∈ vs, item v
  | .object [] => True
  | v => item v

theorem find?_of_perm {α : Type} {ms ns : List α} {q : α → Bool} (hp : ms.Perm ns)
    (h : ∀ a ∈ ms, ∀ b ∈ ms, q a = true → q b = true → a = b) : ms.find? q = ns.find? q := by
  cases hm : ms.find? q with
  | none =>
    have hnone := List.find?_eq_none.1 hm
    exact (List.find?_eq_none.2 fun b hb => hnone b (hp.mem_iff.2 hb)).symm
  | some a =>
    cases hn : ns.find? q with
    | none =>
      exact absurd (List.find?_some hm)
        (List.find?_eq_none.1 hn a (hp.mem_iff.1 (List.mem_of_find?_eq_some hm)))
    | some b =>
      have hb := hp.mem_iff.2 (List.mem_of_find?_eq_some hn)
      rw [h a (List.mem_of_find?_eq_some hm) b hb (List.find?_some hm) (List.find?_some hn)]

/-- The member that is a field is the same one in any order. -/
theorem memberNamed_of_perm {ms ns : List (String × Value)} (hp : ms.Perm ns)
    (hnd : (ms.map fun m => foldedName m.1).Nodup) (name : String) :
    memberNamed ms name = memberNamed ns name := by
  have huniq : ∀ a ∈ ms, ∀ b ∈ ms, foldedName a.1 = foldedName b.1 → a = b :=
    fun a ha b hb => List.inj_on_of_nodup_map hnd ha hb
  rw [memberNamed, memberNamed, find?_of_perm hp, find?_of_perm hp]
  · intro a ha b hb haq hbq
    exact huniq a ha b hb ((beq_iff_eq.1 haq).trans (beq_iff_eq.1 hbq).symm)
  · intro a ha b hb haq hbq
    exact huniq a ha b hb (by rw [beq_iff_eq.1 haq, beq_iff_eq.1 hbq])

section
variable {R : Value → Value → Prop}

/-- Members that correspond are found together. -/
theorem rel_find? {ms ns : List (String × Value)}
    (h : List.Forall₂ (fun m n => m.1 = n.1 ∧ R m.2 n.2) ms ns) (q : String → Bool) :
    Option.Rel (fun m n => R m.2 n.2) (ms.find? fun m => q m.1) (ns.find? fun n => q n.1) := by
  induction h with
  | nil => exact .none
  | @cons m n _ _ hmn _ ih =>
    rw [List.find?_cons, List.find?_cons, hmn.1]
    split
    · exact .some hmn.2
    · exact ih

theorem rel_memberNamed {ms ns : List (String × Value)}
    (h : List.Forall₂ (fun m n => m.1 = n.1 ∧ R m.2 n.2) ms ns) (hnull : R .null .null)
    (name : String) : R (memberNamed ms name) (memberNamed ns name) := by
  have hexact := rel_find? h (· == name)
  have hfolded := rel_find? h fun k => foldedName k == foldedName name
  rw [memberNamed, memberNamed]
  revert hexact hfolded
  generalize ms.find? (fun m => m.1 == name) = a, ns.find? (fun n => n.1 == name) = b
  generalize ms.find? (fun m => foldedName m.1 == foldedName name) = c,
    ns.find? (fun n => foldedName n.1 == foldedName name) = d
  intro hexact hfolded
  cases hexact with
  | some h => exact h
  | none =>
    cases hfolded with
    | some h => exact h
    | none => exact hnull

end

theorem alike_memberNamed {ms ns : List (String × Value)} (h : SameEntries AlikeMember ms ns)
    (hnd : (ms.map fun m => foldedName m.1).Nodup) (name : String) :
    (memberNamed ms name).Alike (memberNamed ns name) := by
  obtain ⟨zs, hp, hz⟩ := h
  rw [memberNamed_of_perm hp hnd]
  exact rel_memberNamed hz rfl name

open Reading

variable {α : Type} {R : α → α → Prop} {entry : Value → Prop}

theorem readRecord_agree {read : List (String × Value) → Reading α}
    {fields : List (String × Value) → Prop}
    (h : ∀ ms ns, fields ms → (∀ name, (memberNamed ms name).Alike (memberNamed ns name)) →
      Agree R (read ms) (read ns))
    {v w : Value} (hv : ClearRecord fields v) (hvw : v.Alike w) :
    Agree R (readRecord read v) (readRecord read w) := by
  cases hvw.matched with
  | null => exact h [] [] hv fun _ => rfl
  | object hms => exact h _ _ hv.2 fun name => alike_memberNamed hms hv.1 name
  | _ => exact .faulty (.refl _)

/-- Entries of one name with related contents. -/
def SameEntry (R : α → α → Prop) (e e' : String × α) : Prop := e.1 = e'.1 ∧ R e.2 e'.2

theorem sameEntry_eq : SameEntry (Eq : α → α → Prop) = Eq := by
  funext e e'
  exact propext Prod.ext_iff.symm

theorem overlaid_sameEntries {es fs es' fs' : List (String × α)}
    (he : SameEntries (SameEntry R) es es') (hf : SameEntries (SameEntry R) fs fs') :
    SameEntries (SameEntry R) (overlaid es fs) (overlaid es' fs') := by
  have hnames : (fs.map Prod.fst).Perm (fs'.map Prod.fst) := hf.map_perm fun _ _ h => h.1
  refine SameEntries.append (he.filter fun e e' h => ?_) hf
  have hall (gs : List (String × α)) (name : String) :
      gs.all (·.1 != name) = (gs.map Prod.fst).all (· != name) := by
    rw [List.all_map]
    rfl
  rw [hall, hall, h.1, Bool.eq_iff_iff, List.all_eq_true, List.all_eq_true]
  simp only [hnames.mem_iff]

section
variable {item : Value → Reading α}
  (hitem : ∀ v w, entry v → v.Alike w → Agree R (item v) (item w))

include hitem

theorem readList_agree {v w : Value} (hv : ClearList entry v) (hvw : v.Alike w) :
    Agree (List.Forall₂ R) (readList item v) (readList item w) := by
  have hone (hv : entry v) : Agree (List.Forall₂ R) (all [item v]) (all [item w]) :=
    all_agree (.cons (hitem v w hv hvw) .nil)
  cases hvw.matched with
  | null => exact .ok .nil
  | list hvs =>
    refine all_agree (List.forall₂_map_left_iff.2 (List.forall₂_map_right_iff.2 ?_))
    exact (List.forall₂_and_left _ _ |>.2 ⟨hv, hvs⟩).imp fun v w h => hitem v w h.1 h.2
  | @object ms ns hms =>
    obtain ⟨zs, hp, hz⟩ := hms
    cases ms with
    | nil =>
      cases hp.symm.eq_nil
      cases hz
      exact .ok .nil
    | cons m ms =>
      cases hz with
      | nil => exact absurd hp.eq_nil (List.cons_ne_nil _ _)
      | cons _ _ => exact hone hv
  | bool b => exact hone hv
  | number n => exact hone hv
  | text s => exact hone hv

theorem readMembers_agree {ms ns : List (String × Value)} (hms : ∀ m ∈ ms, entry m.2)
    (h : SameEntries AlikeMember ms ns) :
    Agree (SameEntries (SameEntry R)) (readMembers item ms) (readMembers item ns) := by
  obtain ⟨zs, hp, hz⟩ := h
  have hzs : ∀ m ∈ zs, entry m.2 := fun m hm => hms m (hp.mem_iff.2 hm)
  refine all_sameEntries ⟨_, hp.map _, List.forall₂_map_left_iff.2 (List.forall₂_map_right_iff.2 ?_)⟩
  refine (List.forall₂_and_left _ _ |>.2 ⟨hzs, hz⟩).imp fun m n hmn => ?_
  exact (hitem m.2 n.2 hmn.1 hmn.2.2).map fun a b hab => ⟨hmn.2.1, hab⟩

omit hitem in
theorem readTables_agree {vs ws : List Value} {before before' : List (String × α)}
    (hvs : List.Forall₂ (fun v w =>
      Agree (SameEntries (SameEntry R)) (readTable item v) (readTable item w)) vs ws)
    (hb : SameEntries (SameEntry R) before before') :
    Agree (SameEntries (SameEntry R)) (readTables item before vs)
      (readTables item before' ws) := by
  induction hvs generalizing before before' with
  | nil => exact .ok hb
  | @cons v w _ _ hvw _ ih =>
    rw [readTables, readTables]
    revert hvw
    generalize readTable item v = r, readTable item w = s
    intro hvw
    cases hvw with
    | faulty h => exact .faulty h
    | ok h => exact ih (overlaid_sameEntries hb h)

theorem readTable_agree {v w : Value} (hv : ClearTable entry v) (hvw : v.Alike w) :
    Agree (SameEntries (SameEntry R)) (readTable item v) (readTable item w) := by
  induction hv generalizing w with
  | null =>
    cases hvw.matched
    exact .ok .nil
  | object h =>
    cases hvw.matched with
    | object hms => exact readMembers_agree hitem h hms
  | list h ih =>
    cases hvw.matched with
    | list hvs =>
      refine readTables_agree ?_ .nil
      exact (List.forall₂_and_left _ _ |>.2 ⟨ih, hvs⟩).imp fun v w hvw => hvw.1 hvw.2
  | _ =>
    cases hvw.matched
    exact .faulty (.refl _)

end

end Value

namespace Description

open Value Reading

def ClearEndpoint (v : Value) : Prop := ClearRecord (fun _ => True) v

def ClearPort (v : Value) : Prop := ClearRecord (fun _ => True) v

def ClearArg (v : Value) : Prop := ClearRecord (fun _ => True) v

def ClearInvocation (v : Value) : Prop :=
  ClearRecord (fun ms => ClearTable ClearArg (memberNamed ms "args")) v

def ClearFifo (v : Value) : Prop :=
  ClearRecord (fun ms => ClearEndpoint (memberNamed ms "consumed_by") ∧
    ClearEndpoint (memberNamed ms "produced_by")) v

def ClearTask (v : Value) : Prop :=
  ClearRecord (fun ms => ClearList ClearPort (memberNamed ms "ports") ∧
    ClearTable (ClearList ClearInvocation) (memberNamed ms "tasks") ∧
    ClearTable ClearFifo (memberNamed ms "fifos")) v

/-- No record of the tree has two names that differ in upper and lower case only. -/
def Clear (v : Value) : Prop :=
  ClearRecord (fun ms => ClearTable ClearTask (memberNamed ms "tasks")) v

section
variable {f : Quantity → Option Quantity}

/-- The property outlives a reading of the numbers of a tree. -/
def Outlives (f : Quantity → Option Quantity) (P : Value → Prop) : Prop :=
  ∀ v w, mapNumbers? f v = some w → P v → P w

theorem outlives_record {fields : List (String × Value) → Prop}
    (h : ∀ ms ns, (∀ name, mapNumbers? f (memberNamed ms name) = some (memberNamed ns name)) →
      fields ms → fields ns) :
    Outlives f (ClearRecord fields) := by
  intro v w hvw hv
  cases read_of_mapNumbers hvw with
  | null => exact hv
  | @object ms ns hms =>
    have hfolded : ns.map (fun n => foldedName n.1) = ms.map fun m => foldedName m.1 := by
      have hnames := congrArg (List.map foldedName) (names_of_renumbered hms)
      rw [List.map_map, List.map_map] at hnames
      exact hnames.symm
    exact ⟨hfolded ▸ hv.1, h ms ns
      (rel_memberNamed (R := fun v w => mapNumbers? f v = some w) hms rfl) hv.2⟩
  | _ => trivial

theorem outlives_list {item : Value → Prop} (h : Outlives f item) :
    Outlives f (ClearList item) := by
  intro v w hvw hv
  cases read_of_mapNumbers hvw with
  | null => trivial
  | list hvs =>
    intro w hw
    obtain ⟨v, hmem, hvw⟩ := exists_of_forall₂ hvs hw
    exact h v w hvw (hv v hmem)
  | object hms =>
    cases hms with
    | nil => trivial
    | cons _ _ => exact h _ _ hvw hv
  | _ => exact h _ _ hvw hv

theorem outlives_table {entry : Value → Prop} (h : Outlives f entry) :
    Outlives f (ClearTable entry) := by
  intro v w hvw hv
  induction hv generalizing w with
  | object hms =>
    cases read_of_mapNumbers hvw with
    | object hns =>
      refine .object fun n hn => ?_
      obtain ⟨m, hm, hmn⟩ := exists_of_forall₂ hns hn
      exact h m.2 n.2 hmn.2 (hms m hm)
  | list _ ih =>
    cases read_of_mapNumbers hvw with
    | list hws =>
      refine .list fun w hw => ?_
      obtain ⟨v, hv, hvw⟩ := exists_of_forall₂ hws hw
      exact ih v hv w hvw
  | null => cases read_of_mapNumbers hvw; exact .null
  | bool b => cases read_of_mapNumbers hvw; exact .bool b
  | number n => cases read_of_mapNumbers hvw; exact .number _
  | text s => cases read_of_mapNumbers hvw; exact .text s

theorem outlives_clear : Outlives f Clear := by
  have hleaf : Outlives f (ClearRecord fun _ => True) := outlives_record fun _ _ _ _ => trivial
  have hinvocation : Outlives f ClearInvocation :=
    outlives_record fun ms ns h hargs => outlives_table hleaf _ _ (h "args") hargs
  have hfifo : Outlives f ClearFifo := outlives_record fun ms ns h hends =>
    ⟨hleaf _ _ (h "consumed_by") hends.1, hleaf _ _ (h "produced_by") hends.2⟩
  have htask : Outlives f ClearTask := outlives_record fun ms ns h hin =>
    ⟨outlives_list hleaf _ _ (h "ports") hin.1,
      outlives_table (outlives_list hinvocation) _ _ (h "tasks") hin.2.1,
      outlives_table hfifo _ _ (h "fifos") hin.2.2⟩
  exact outlives_record fun ms ns h htasks => outlives_table htask _ _ (h "tasks") htasks

end

structure InvocationEntry.Rearranged (v w : InvocationEntry) : Prop where
  step : v.step = w.step
  args : v.args.Perm w.args

structure TaskEntry.Rearranged (t u : TaskEntry) : Prop where
  level : t.level = u.level
  ports : t.ports = u.ports
  children : SameEntries (SameEntry (List.Forall₂ InvocationEntry.Rearranged)) t.children u.children
  fifos : t.fifos.Perm u.fifos

/-- Descriptions that differ in the order of their tables. -/
structure Rearranged (d e : Description) : Prop where
  top : d.top = e.top
  tasks : SameEntries (SameEntry TaskEntry.Rearranged) d.tasks e.tasks

variable {v w : Value}

theorem readLevel_alike (h : v.Alike w) : readLevel v = readLevel w := by
  cases h.matched <;> rfl

theorem readIndex_alike (h : v.Alike w) : readIndex v = readIndex w := by
  have hshown := h.shown
  cases h.matched with
  | list _ => rw [readIndex, readIndex, hshown] <;> simp
  | object _ => rw [readIndex, readIndex, hshown] <;> simp
  | _ => rfl

theorem readEndpoint_alike (hv : ClearEndpoint v) (h : v.Alike w) :
    readEndpoint v = readEndpoint w := by
  have hshown := h.shown
  cases h.matched with
  | object hms =>
    have hm := alike_memberNamed hms hv.1
    rw [readEndpoint, readEndpoint, (hm "Task").readText, (hm "Index").readInt]
  | @list vs ws hvs =>
    match vs, ws, hvs with
    | [], _, .nil => rfl
    | [_], _, .cons _ .nil => simp only [readEndpoint, hshown]
    | [task, index], _, .cons htask (.cons hindex .nil) =>
      have htext := htask.shown
      cases htask.matched <;> simp only [readEndpoint, readIndex_alike hindex, htext]
    | _ :: _ :: _ :: _, _, .cons _ (.cons _ (.cons _ _)) => simp only [readEndpoint, hshown]
  | _ => rfl

theorem readPort_alike (hv : ClearPort v) (h : v.Alike w) : Agree Eq (readPort v) (readPort w) := by
  refine readRecord_agree (fun ms ns _ hm => ?_) hv h
  simp only [(hm _).readText, (hm _).readInt]
  exact .refl (fun _ => rfl) _

theorem readArg_alike (hv : ClearArg v) (h : v.Alike w) : Agree Eq (readArg v) (readArg w) := by
  refine readRecord_agree (fun ms ns _ hm => ?_) hv h
  simp only [(hm _).readText]
  exact .refl (fun _ => rfl) _

theorem readInvocation_agree (hv : ClearInvocation v) (h : v.Alike w) :
    Agree InvocationEntry.Rearranged (readInvocation v) (readInvocation w) := by
  refine readRecord_agree (fun ms ns hargs hm => ?_) hv h
  rw [(hm "step").readInt]
  refine .seq (.map (R := Eq) (.refl (fun _ => rfl) _) ?_)
    (readTable_agree (fun _ _ => readArg_alike) hargs (hm "args"))
  rintro step _ rfl args args' hargs
  exact ⟨rfl, (sameEntry_eq ▸ hargs).perm⟩

theorem readFifo_alike (hv : ClearFifo v) (h : v.Alike w) : Agree Eq (readFifo v) (readFifo w) := by
  refine readRecord_agree (fun ms ns hends hm => ?_) hv h
  rw [(hm "depth").readInt, readEndpoint_alike hends.1 (hm _), readEndpoint_alike hends.2 (hm _)]
  exact .refl (fun _ => rfl) _

theorem readTask_agree (hv : ClearTask v) (h : v.Alike w) :
    Agree TaskEntry.Rearranged (readTask v) (readTask w) := by
  refine readRecord_agree (fun ms ns hin hm => ?_) hv h
  obtain ⟨hports, hchildren, hfifos⟩ := hin
  rw [readLevel_alike (hm "level")]
  refine .seq (.seq (.seq (.map (R := Eq) (.refl (fun _ => rfl) _) ?_)
    (readList_agree (fun _ _ => readPort_alike) hports (hm "ports")))
    (readTable_agree (fun _ _ => readList_agree fun _ _ => readInvocation_agree) hchildren
      (hm "tasks")))
    (readTable_agree (fun _ _ => readFifo_alike) hfifos (hm "fifos"))
  rintro level _ rfl ports ports' hports children children' hchildren fifos fifos' hfifos
  exact ⟨rfl, List.forall₂_eq_eq_eq ▸ hports, hchildren, (sameEntry_eq ▸ hfifos).perm⟩

/-- Descriptions that are read from alike trees differ in the order of their tables only. -/
theorem read_agree (hv : Clear v) (h : v.Alike w) : Agree Rearranged (read v) (read w) := by
  refine readRecord_agree (fun ms ns htasks hm => ?_) hv h
  rw [(hm "top").readText]
  refine .seq (.map (R := Eq) (.refl (fun _ => rfl) _) ?_)
    (readTable_agree (fun _ _ => readTask_agree) htasks (hm "tasks"))
  rintro top _ rfl tasks tasks' htasks
  exact ⟨rfl, htasks⟩

/-! ### From rearranged descriptions to programs -/

theorem InvocationEntry.Rearranged.toInvocation {v w : InvocationEntry} (h : v.Rearranged w) :
    v.toInvocation.Rearranged w.toInvocation := ⟨h.step, h.args.map _⟩

theorem TaskEntry.Rearranged.toTask {t u : TaskEntry} (h : t.Rearranged u) (name : String) :
    (t.toTask name).Rearranged (u.toTask name) := by
  refine ⟨rfl, h.level, ?_, ?_, h.fifos.map _⟩
  · rw [TaskEntry.toTask, TaskEntry.toTask, h.ports]
  · refine (h.children.filter fun c d hcd => ?_).map fun c d hcd => ⟨hcd.1, ?_⟩
    · rw [Bool.eq_iff_iff]
      simp [← List.length_eq_zero_iff, hcd.2.length_eq]
    · rw [List.forall₂_map_left_iff, List.forall₂_map_right_iff]
      exact hcd.2.imp fun _ _ => InvocationEntry.Rearranged.toInvocation

theorem TaskEntry.Rearranged.issues {t u : TaskEntry} (h : t.Rearranged u) (name : String) :
    (t.issues name).Perm (u.issues name) := by
  rw [TaskEntry.issues, TaskEntry.issues, h.ports]
  refine List.Perm.append_left _ (h.children.flatMap_perm fun c d hcd => ?_)
  obtain ⟨child, vs⟩ := c
  obtain ⟨_, ws⟩ := d
  obtain ⟨rfl, hvs⟩ := hcd
  change List.Forall₂ InvocationEntry.Rearranged vs ws at hvs
  have hplaced (placed : Nat → String) :
      (vs.mapIdx fun i v => v.issues name (placed i)).flatten.Perm
        (ws.mapIdx fun i w => w.issues name (placed i)).flatten := by
    induction hvs generalizing placed with
    | nil => exact .nil
    | cons hvw _ ih =>
      rw [List.mapIdx_cons, List.mapIdx_cons, List.flatten_cons, List.flatten_cons]
      exact (hvw.args.flatMap_right _).append (ih fun i => placed (i + 1))
  exact hplaced _

theorem Rearranged.issues {d e : Description} (h : d.Rearranged e) : d.issues.Perm e.issues := by
  rw [Description.issues, Description.issues]
  refine ((Text.perm_sortedBy _ _).flatMap_right _).trans ?_
  refine List.Perm.trans ?_ ((Text.perm_sortedBy _ _).flatMap_right _).symm
  refine h.tasks.flatMap_perm fun t u htu => ?_
  obtain ⟨name, t⟩ := t
  obtain ⟨_, u⟩ := u
  obtain ⟨rfl, htu⟩ := htu
  exact htu.issues name

end Description

/-- The notes or the issues of an error, in order. -/
def DescriptionError.details : DescriptionError → List String
  | .unreadable faults => notes faults
  | .missingTop => []
  | .categories found => issueTexts found

/-- Errors with one class, one message and the same notes or issues. -/
structure DescriptionError.Alike (e e' : DescriptionError) : Prop where
  kind : e.kind = e'.kind
  message : e.message = e'.message
  details : e.details = e'.details

theorem DescriptionError.alike_unreadable {fs gs : List Fault} (h : fs.Perm gs) :
    (DescriptionError.unreadable fs).Alike (.unreadable gs) :=
  ⟨rfl, rfl, Text.sorted_of_perm (h.filterMap _)⟩

theorem DescriptionError.alike_categories {found found' : List Description.Issue}
    (h : found.Perm found') : (DescriptionError.categories found).Alike (.categories found') :=
  ⟨rfl, rfl, Text.sorted_of_perm (h.map _)⟩

namespace Description

open Value

variable {v w : Value}

/-- Programs that differ in the order of their tables, or errors that are alike. -/
inductive SameOutcome : Except DescriptionError Program → Except DescriptionError Program → Prop
  | ok {p q : Program} (h : p.Rearranged q) : SameOutcome (.ok p) (.ok q)
  | error {e e' : DescriptionError} (h : e.Alike e') : SameOutcome (.error e) (.error e')

theorem Rearranged.toProgram {d e : Description} (h : d.Rearranged e) :
    SameOutcome d.toProgram e.toProgram := by
  have hissues := h.issues
  have hempty : d.issues.isEmpty = e.issues.isEmpty := by
    rw [Bool.eq_iff_iff, List.isEmpty_iff, List.isEmpty_iff]
    exact ⟨fun hd => (hd ▸ hissues).symm.eq_nil, fun he => (he ▸ hissues).eq_nil⟩
  rw [Description.toProgram, Description.toProgram, h.top, hempty]
  split
  · exact .error ⟨rfl, rfl, rfl⟩
  split
  · exact .error (DescriptionError.alike_categories hissues)
  · refine .ok ⟨rfl, h.tasks.map fun t u htu => ?_⟩
    obtain ⟨name, t⟩ := t
    obtain ⟨_, u⟩ := u
    obtain ⟨rfl, htu⟩ := htu
    exact htu.toTask name

theorem ofValue_agree (hv : v.Distinct) (hclear : Clear v) (h : v.Reordered w) :
    SameOutcome (ofValue v) (ofValue w) := by
  obtain ⟨halike, hw⟩ := canonical_of_reordered h hv
  have hread := read_agree hclear halike
  rw [ofValue, ofValue, hv.distinct_eq, hw.distinct_eq]
  revert hread
  generalize read v = r, read w = s
  intro hread
  cases hread with
  | ok h => exact h.toProgram
  | faulty h => exact .error (DescriptionError.alike_unreadable h)

theorem mapNumbers_of_tree {style : NumberStyle} {s : String} {x : Value}
    (hs : Value.ofText? s = some v) (hx : tree? style s = some x) :
    mapNumbers? style.apply v = some x := by
  rw [tree?, hs, Option.bind_some] at hx
  exact (Option.filter_eq_some_iff.1 hx).1

/-- Texts that differ in the order of the members of objects describe programs that differ in the
order of their tables, or they fail in the same way. -/
theorem parse_agree {s s' : String} (hs : Value.ofText? s = some v)
    (hs' : Value.ofText? s' = some w) (h : v.Reordered w) (hv : v.Distinct) (hclear : Clear v)
    (style : NumberStyle) : SameOutcome (parse style s) (parse style s') := by
  have hrel := tree_of_reordered hs hs' h style
  have hnumbers : ∀ x, tree? style s = some x → mapNumbers? style.apply v = some x :=
    fun x => mapNumbers_of_tree hs
  rw [parse, parse]
  revert hrel hnumbers
  generalize tree? style s = a, tree? style s' = b
  intro hrel hnumbers
  cases hrel with
  | none => exact .error ⟨rfl, rfl, rfl⟩
  | some hxy =>
    have hx := hnumbers _ rfl
    exact ofValue_agree (hv.mapNumbers hx) (outlives_clear v _ hx hclear) hxy

end Description

end TaskLoom
