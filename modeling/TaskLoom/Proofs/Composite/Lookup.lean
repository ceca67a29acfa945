import TaskLoom.Proofs.Composite.Layout
import TaskLoom.Proofs.Graph.Order
import Mathlib.Data.List.Nodup
import Mathlib.Data.List.Pairwise
import Mathlib.Data.List.TakeDrop
import Mathlib.Tactic.ByContra

/-!
# Looking up the ports of an interface

The interface of a composite without a skeleton has one port for each role of a declared port, and
its name is written down as declared.  The lookup reads array names in another way and tries marks
before the plain name.  `Task.Plain t q role`: neither gets in the way of the declared port `q` in
this role.

All other ports of the module, those of the handshake, of memory buses and of memory channels, have
names with an ending of their own (`Reserved`) and are never found instead, so `Plan.Interface`
holds from the derivation of the interface to the end of the construction.

Main statement: the lookup of a declared port gives the port that was added for it exactly if the
port is plain, and then streams and enclosing tasks are connected to it (`interface_lookup_iff`).
-/

namespace TaskLoom

open Build

/-- The roles in which a declared port appears in the interface. -/
def TaskPort.roles (q : TaskPort) : List String :=
  match q.category with
  | .istream => readSide.suffixes
  | .ostream => writeSide.suffixes
  | .unknown _ => []
  | _ => [""]

/-- The names in the interface of a declared port. -/
def TaskPort.portNames (q : TaskPort) : List String := q.roles.map (q.name ++ ·)

/-- The marks that the lookup tries before the plain name. -/
def properMarks : List String := ["_V", "_r", "_s"]

/-- The lookup of a declared port in a role is not led astray: the name is no array name, and no
declared port has a port in the interface that looks like this one with a mark. -/
def Task.Plain (t : Task) (q : TaskPort) (role : String) : Prop :=
  flatName q.name = q.name ∧
    ∀ mark ∈ properMarks, ∀ r ∈ t.ports, q.name ++ mark ++ role ∉ r.portNames

instance (t : Task) (q : TaskPort) (role : String) : Decidable (t.Plain q role) :=
  inferInstanceAs (Decidable (_ ∧ _))

/-- `r` is the port that the interface gets for the declared port `q` in a role. -/
structure Plan.Gives (p : Plan) (q : TaskPort) (role : String) (r : Port) : Prop where
  name : r.name = q.name ++ role
  added : ∃ ports, p.interfacePorts q.name q.category q.width = pure ports ∧ r ∈ ports

def streamRoles : List String := readSide.suffixes ++ writeSide.suffixes

/-- How the names of ports end that are declared by no one. -/
def reservedEndings : List String :=
  handshakePorts ++ (busPorts.map fun (ch, q) => "_" ++ ch ++ q.name) ++
    streamRoles.map fun role => "__" ++ String.ofList (Literal.dropOne '_' role.toList)

/-- A name that ends like that of a handshake port, of a bus port or of a channel. -/
def Reserved (name : String) : Prop := ∃ stem, ∃ ending ∈ reservedEndings, name = stem ++ ending

theorem TaskPort.roles_subset (q : TaskPort) : q.roles ⊆ "" :: streamRoles := by
  unfold TaskPort.roles
  split <;> simp [streamRoles]

/-- Texts that end in different ways are different. -/
theorem append_ne_append {s s' e e' : String} (h : e.toList.isSuffixOf e'.toList = false)
    (h' : e'.toList.isSuffixOf e.toList = false) : s ++ e ≠ s' ++ e' := by
  intro he
  have he' : s.toList ++ e.toList = s'.toList ++ e'.toList := by
    rw [← String.toList_append, ← String.toList_append, he]
  -- of two ends of one text, one ends the other
  rcases List.suffix_or_suffix_of_suffix (List.suffix_append _ _)
    (he' ▸ List.suffix_append s.toList e.toList) with hs | hs
  · rw [← List.isSuffixOf_iff_suffix, h'] at hs
    cases hs
  · rw [← List.isSuffixOf_iff_suffix, h] at hs
    cases hs

theorem reservedEndings_apart : ∀ ending ∈ reservedEndings, ∀ mark ∈ properMarks,
    ∀ role ∈ "" :: streamRoles, ending.toList.isSuffixOf (mark ++ role).toList = false ∧
      (mark ++ role).toList.isSuffixOf ending.toList = false := by
  decide +kernel

/-- No name with a mark in front of a role is reserved. -/
theorem not_reserved_marked {name mark role : String} (hmark : mark ∈ properMarks)
    (hrole : role ∈ "" :: streamRoles) : ¬ Reserved (name ++ mark ++ role) := by
  rintro ⟨stem, ending, hending, he⟩
  obtain ⟨hne, hne'⟩ := reservedEndings_apart ending hending mark hmark role hrole
  exact append_ne_append hne' hne (by rw [← String.append_assoc, he])

theorem reserved_busPort (arg : String) {x : String × BusPort} (hx : x ∈ busPorts) :
    Reserved (busPort arg x.1 x.2.name) := by
  refine ⟨"m_axi_" ++ arg, "_" ++ x.1 ++ x.2.name, ?_, by simp [busPort, String.append_assoc]⟩
  exact List.mem_append_left _ (List.mem_append_right _ (List.mem_map_of_mem hx))

theorem reserved_channelWire (arg channel : String) {role : String} (h : role ∈ streamRoles) :
    Reserved (channelWire arg channel role) :=
  ⟨flatName (arg ++ "_" ++ channel), _, List.mem_append_right _ (List.mem_map_of_mem h),
    String.append_assoc⟩

/-! ### The lookup -/

/-- A name that is written without the brackets of an index is shorter by one character. -/
theorem length_flatName {name : String} (h : flatName name ≠ name) :
    (flatName name).length + 1 = name.length := by
  unfold flatName at h ⊢
  split
  · rename_i base c rest hspan
    rw [hspan] at h
    have hname : name.toList = base ++ c :: rest := by
      rw [List.span_eq_takeWhile_dropWhile, Prod.mk.injEq] at hspan
      rw [← hspan.1, ← hspan.2, List.takeWhile_append_dropWhile]
    simp only at h ⊢
    split
    · rename_i hindex
      have hrest : rest ≠ [] := by
        rintro rfl
        simp at hindex
      have hpos := List.length_pos_iff.2 hrest
      simp only [← String.length_toList, String.toList_ofList, hname, List.length_append,
        List.length_cons, List.length_dropLast]
      omega
    · rename_i hindex
      exact absurd (if_neg hindex) h
  · rename_i hspan
    split at h
    · rename_i base c rest hspan'
      exact absurd hspan' (hspan base c rest)
    · exact absurd rfl h

/-- No mark makes up for a change of the name. -/
theorem flatName_append_eq {name mark : String} (hmark : mark ∈ portMarks)
    (h : flatName name ++ mark = name) : flatName name = name ∧ mark = "" := by
  have hflat : flatName name = name := by
    by_contra hne
    have hlength := length_flatName hne
    have hmarks : ∀ mark ∈ portMarks, mark.length ≠ 1 := by decide
    have htotal : (flatName name).length + mark.length = name.length := by
      rw [← String.length_append, h]
    exact hmarks mark hmark (by omega)
  refine ⟨hflat, ?_⟩
  rw [hflat] at h
  simpa using h

theorem Module.port?_eq_none_iff {m : Module} {name : String} :
    m.port? name = none ↔ name ∉ portNames m := by
  simp [Module.port?, portNames]

theorem Module.port?_eq_some {m : Module} (hnd : (portNames m).Nodup) {r : Port}
    (hr : r ∈ m.ports) : m.port? r.name = some r := by
  cases hfound : m.port? r.name with
  | none => exact absurd (List.mem_map_of_mem hr) (port?_eq_none_iff.1 hfound)
  | some x =>
    have hname : x.name = r.name := by simpa using List.find?_some hfound
    rw [List.inj_on_of_nodup_map hnd (List.mem_of_find?_eq_some hfound) hr hname]

theorem Module.portOf_eq_ok {m : Module} {name role : String} {r : Port} :
    m.portOf name role = .ok r ↔
      portMarks.findSome? (fun mark => m.port? (flatName name ++ mark ++ role)) = some r := by
  unfold Module.portOf
  cases portMarks.findSome? fun mark => m.port? (flatName name ++ mark ++ role) <;> simp

/-- The lookup gives the port of the plain name exactly if the name is not changed and there is no
port with a mark. -/
theorem Module.portOf_eq_iff {m : Module} {name role : String} {r : Port}
    (hnd : (portNames m).Nodup) (hr : r ∈ m.ports) (hname : r.name = name ++ role) :
    m.portOf name role = .ok r ↔
      flatName name = name ∧ ∀ mark ∈ properMarks, name ++ mark ++ role ∉ portNames m := by
  have hplain : m.port? (name ++ role) = some r := hname ▸ port?_eq_some hnd hr
  -- whatever mark gives this port, it changed nothing
  have hmark (mark : String) (hmark : mark ∈ portMarks)
      (h : m.port? (flatName name ++ mark ++ role) = some r) :
      flatName name = name ∧ mark = "" := by
    have hname' : r.name = flatName name ++ mark ++ role := by simpa using List.find?_some h
    exact flatName_append_eq hmark ((String.append_left_inj role).1 (hname'.symm.trans hname))
  rw [portOf_eq_ok]
  constructor
  · intro h
    obtain ⟨mark, hmem, hfound⟩ := List.exists_of_findSome?_eq_some h
    obtain ⟨hflat, rfl⟩ := hmark mark hmem hfound
    refine ⟨hflat, fun mark' hmem' => port?_eq_none_iff.1 ?_⟩
    rw [show portMarks = properMarks ++ [""] from rfl, List.findSome?_append] at h
    cases hfirst : properMarks.findSome? fun mark => m.port? (flatName name ++ mark ++ role) with
    | none => simpa [hflat] using List.findSome?_eq_none_iff.1 hfirst mark' hmem'
    | some x =>
      rw [hfirst, Option.some_or, Option.some.injEq] at h
      obtain ⟨mark₁, hmem₁, hfound₁⟩ := List.exists_of_findSome?_eq_some hfirst
      have hempty := (hmark mark₁ (List.mem_append_left [""] hmem₁) (h ▸ hfound₁)).2
      rw [hempty] at hmem₁
      exact absurd hmem₁ (by decide)
  · rintro ⟨hflat, hmarks⟩
    rw [show portMarks = properMarks ++ [""] from rfl, List.findSome?_append, hflat,
      List.findSome?_eq_none_iff.2 fun mark hmark => port?_eq_none_iff.2 (hmarks mark hmark)]
    simpa using hplain

/-- A module that has the interface of the declared ports, and otherwise ports with reserved names
only. -/
structure Plan.Interface (p : Plan) (m : Module) : Prop where
  given : ∀ q ∈ p.task.ports, ∀ role ∈ q.roles, ∃ r ∈ m.ports, p.Gives q role r
  named : ∀ r ∈ m.ports, Reserved r.name ∨ ∃ q ∈ p.task.ports, r.name ∈ q.portNames
  apart : (p.task.ports.flatMap TaskPort.portNames).Nodup
  nodup : (portNames m).Nodup
  tallied : m.Tallied

namespace Plan

variable {p : Plan} {m m' : Module} {q q' : TaskPort} {role role' : String}

namespace Interface

theorem portOf_eq_iff (h : p.Interface m) (hrole : role ∈ q.roles) {r : Port} (hr : r ∈ m.ports)
    (hname : r.name = q.name ++ role) :
    m.portOf q.name role = .ok r ↔ p.task.Plain q role := by
  rw [Module.portOf_eq_iff h.nodup hr hname, Task.Plain]
  refine and_congr_right fun _ => forall₂_congr fun mark hmark => ?_
  constructor
  · intro habsent q' hq' hmem
    obtain ⟨role', hrole', he⟩ := List.mem_map.1 hmem
    obtain ⟨r', hr', hgives⟩ := h.given q' hq' role' hrole'
    exact habsent (by rw [← he, ← hgives.name]; exact List.mem_map_of_mem hr')
  · intro habsent hmem
    obtain ⟨r', hr', he⟩ := List.mem_map.1 hmem
    rcases h.named r' hr' with hreserved | ⟨q', hq', hmem'⟩
    · rw [he] at hreserved
      exact not_reserved_marked hmark (q.roles_subset hrole) hreserved
    · rw [he] at hmem'
      exact habsent q' hq' hmem'

/-- Different roles of different declared ports have different names in the interface. -/
theorem eq_of_names (h : p.Interface m) (hq : q ∈ p.task.ports) (hq' : q' ∈ p.task.ports)
    (hrole : role ∈ q.roles) (hrole' : role' ∈ q'.roles) (he : q.name ++ role = q'.name ++ role') :
    q = q' ∧ role = role' := by
  obtain ⟨-, hdisjoint⟩ := List.nodup_flatMap.1 h.apart
  by_cases hqq : q = q'
  · subst hqq
    exact ⟨rfl, (String.append_right_inj _).1 he⟩
  · have hsymm : Std.Symm (Function.onFun List.Disjoint TaskPort.portNames) :=
      ⟨fun _ _ h _ hx hy => h hy hx⟩
    have hmem : q.name ++ role ∈ q.portNames := List.mem_map_of_mem hrole
    have hmem' : q'.name ++ role' ∈ q'.portNames := List.mem_map_of_mem hrole'
    exact (hdisjoint.forall hq hq' hqq hmem (he ▸ hmem')).elim

end Interface

/-- The ports of a declared port have the names that its roles give. -/
theorem interfacePorts_pure {d d' : Draft} {ports : List Port}
    (h : p.interfacePorts q.name q.category q.width d = .ok ports d') :
    p.interfacePorts q.name q.category q.width = pure ports ∧
      ports.map Port.name = q.portNames := by
  unfold interfacePorts at h ⊢
  unfold TaskPort.portNames TaskPort.roles
  cases hc : q.category <;> rw [hc] at h <;> cases h <;> simp [streamPorts, StreamSide.suffixes]

theorem adds_addInterface (p : Plan) (q : TaskPort) :
    (p.addInterface q.name q.category q.width).Adds fun _ items _ => ∃ ports : List Port,
      items = ports.map .port ∧ ports.map Port.name = q.portNames ∧
      ∀ role ∈ q.roles, ∃ r ∈ ports, p.Gives q role r := by
  have hports : (p.interfacePorts q.name q.category q.width).Silent fun ports =>
      p.interfacePorts q.name q.category q.width = pure ports ∧
        ports.map Port.name = q.portNames := by
    intro d ports d' h
    have hpure := interfacePorts_pure h
    rw [hpure.1] at h
    cases h
    exact ⟨[], Module.addAll_nil, rfl, hpure⟩
  refine hports.bind_adds fun ports ⟨hpure, hnames⟩ => (adds_add _).mono fun _ _ _ he => ?_
  refine ⟨ports, he, hnames, fun role hrole => ?_⟩
  have hmem : q.name ++ role ∈ ports.map Port.name := by
    rw [hnames]
    exact List.mem_map_of_mem hrole
  obtain ⟨r, hr, hname⟩ := List.mem_map.1 hmem
  exact ⟨r, hr, hname, ports, hpure, hr⟩

theorem adds_addInterfaces (p : Plan) (qs : List TaskPort) :
    (qs.forM fun q => p.addInterface q.name q.category q.width).Adds fun _ items _ =>
      ∃ ports : List Port, items = ports.map .port ∧
        ports.map Port.name = qs.flatMap TaskPort.portNames ∧
        ∀ q ∈ qs, ∀ role ∈ q.roles, ∃ r ∈ ports, p.Gives q role r := by
  induction qs with
  | nil => exact .pure fun _ => ⟨[], rfl, rfl, by simp⟩
  | cons q qs ih =>
    refine (Adds.bind (p.adds_addInterface q) fun _ => ih).mono ?_
    rintro m _ _ ⟨_, _, _, m', rfl, -, ⟨xs, rfl, hxs, hq⟩, ys, rfl, hys, hqs⟩
    refine ⟨xs ++ ys, by simp, by simp [hxs, hys], fun q' hq' role hrole => ?_⟩
    rcases List.mem_cons.1 hq' with rfl | hq'
    · obtain ⟨r, hr, hgives⟩ := hq role hrole
      exact ⟨r, List.mem_append_left _ hr, hgives⟩
    · obtain ⟨r, hr, hgives⟩ := hqs q' hq' role hrole
      exact ⟨r, List.mem_append_right _ hr, hgives⟩

theorem portsOf_map_port (ports : List Port) : portsOf (ports.map .port) = ports := by
  simp [portsOf, List.filterMap_map, Function.comp_def, Item.port?]

theorem adds_deriveInterface (hports : p.task.ports ≠ []) :
    p.deriveInterface.Adds fun _ items _ => ∃ ports : List Port,
      items = (basePorts ++ ports).map .port ∧
        ports.map Port.name = p.task.ports.flatMap TaskPort.portNames ∧
        ∀ q ∈ p.task.ports, ∀ role ∈ q.roles, ∃ r ∈ ports, p.Gives q role r := by
  unfold deriveInterface
  rw [if_neg (by simpa using hports)]
  refine (Adds.bind (adds_add _) fun _ => p.adds_addInterfaces _).mono ?_
  rintro m _ _ ⟨_, _, _, m', rfl, -, rfl, ports, rfl, hnames, hgiven⟩
  exact ⟨ports, by simp, hnames, hgiven⟩

theorem interface_of_deriveInterface (hports : p.task.ports ≠ []) {d d' : Draft}
    (hd : d.module = .new p.task.name) (h : p.deriveInterface d = .ok () d') :
    p.Interface d'.module := by
  obtain ⟨_, hitems, ports, rfl, hnames, hgiven⟩ := adds_deriveInterface hports _ _ _ h
  have hall : d'.module.ports = basePorts ++ ports := by
    rw [Module.addAll_eq hitems, Module.ports_pushAll, hd, portsOf_map_port, Module.new_ports,
      List.nil_append]
  have hnd := (Module.nodup_of_addAll hitems).1
  rw [namesOf_map_port, List.map_append] at hnd
  refine ⟨fun q hq role hrole => ?_, fun r hr => ?_, ?_, ?_, ?_⟩
  · obtain ⟨r, hr, hgives⟩ := hgiven q hq role hrole
    exact ⟨r, hall ▸ List.mem_append_right _ hr, hgives⟩
  · rw [hall, List.mem_append] at hr
    rcases hr with hr | hr
    · have hhandshake : ∀ r ∈ basePorts, r.name ∈ handshakePorts := by decide
      exact .inl ⟨"", r.name, List.mem_append_left _ (List.mem_append_left _ (hhandshake r hr)),
        String.empty_append.symm⟩
    · have hname := List.mem_map_of_mem (f := Port.name) hr
      rw [hnames, List.mem_flatMap] at hname
      exact .inr hname
  · rw [← hnames]
    exact (List.nodup_append.1 hnd).2.1
  · rw [portNames, hall, List.map_append]
    exact hnd
  · rw [Module.addAll_eq hitems, hd]
    exact (Module.tallied_new _).pushAll _

end Plan

/-! ### The rest of the construction -/

/-- An item that is no parameter, and if it is a port, then one with a reserved name. -/
def Item.KeepsInterface : Item → Prop
  | .port r => Reserved r.name
  | .param _ => False
  | _ => True

namespace Plan

variable {p : Plan} {m m' : Module} {q q' : TaskPort} {role role' : String}

theorem portNamesOf_sublist (items : List Item) :
    (portNamesOf items).Sublist (namesOf items) := by
  induction items with
  | nil => exact .slnil
  | cons i items ih =>
    cases i with
    | port r => exact ih.cons_cons r.name
    | logic l => exact ih
    | _ => exact ih.cons _

theorem Interface.addAll (h : p.Interface m) {items : List Item} (hm : m.addAll items = .ok m')
    (hitems : ∀ i ∈ items, i.KeepsInterface) : p.Interface m' := by
  have hall : m'.ports = m.ports ++ portsOf items := by
    rw [Module.addAll_eq hm, Module.ports_pushAll]
  obtain ⟨hnd, hfresh⟩ := Module.nodup_of_addAll hm
  refine ⟨fun q hq role hrole => ?_, fun r hr => ?_, h.apart, ?_,
    Module.addAll_eq hm ▸ h.tallied.pushAll items⟩
  · obtain ⟨r, hr, hgives⟩ := h.given q hq role hrole
    exact ⟨r, hall ▸ List.mem_append_left _ hr, hgives⟩
  · rw [hall, List.mem_append] at hr
    rcases hr with hr | hr
    · exact h.named r hr
    · exact .inl (hitems _ (mem_portsOf.1 hr))
  · rw [portNames_of_addAll hm, List.nodup_append]
    refine ⟨h.nodup, hnd.sublist (portNamesOf_sublist items), fun n hn n' hn' he => ?_⟩
    obtain ⟨r, hr, rfl⟩ := List.mem_map.1 hn
    have hnew := hfresh n' ((portNamesOf_sublist items).subset hn')
    have hold : m.declared r.name = true :=
      h.tallied.declared_iff.2 (Module.mem_names_of_port hr)
    rw [← he, hold] at hnew
    cases hnew

theorem each_signals (ss : List Signal) : (Build.add (ss.map .signal)).Each Item.KeepsInterface :=
  .add (List.forall_mem_map.2 fun _ _ => trivial)

theorem each_logics (ls : List Logic) : (Build.add (ls.map .logic)).Each Item.KeepsInterface :=
  .add (List.forall_mem_map.2 fun _ _ => trivial)

theorem each_cell (c : Cell) : (Build.add [.cell c]).Each Item.KeepsInterface :=
  .add (List.forall_mem_singleton.2 trivial)

theorem each_pipeline (t : Pipeline) (seed : Expr) :
    (Build.pipeline t seed).Each Item.KeepsInterface :=
  .add (List.forall_mem_append.2 ⟨List.forall_mem_map.2 fun _ _ => trivial,
    List.forall_mem_map.2 fun _ _ => trivial⟩)

theorem each_resetItems : (Build.add resetItems).Each Item.KeepsInterface :=
  .add (List.forall_mem_cons.2 ⟨trivial, List.forall_mem_singleton.2 trivial⟩)

theorem each_declareControl (level : Nat) : (declareControl level).Each Item.KeepsInterface :=
  .bind (each_signals [_, _]) fun _ => .bind (each_pipeline _ _) fun _ => each_pipeline _ _

theorem each_connectExternal (f : Fifo) : (connectExternal f).Each Item.KeepsInterface := by
  refine .silent_bind silent_module fun m => .silent_bind (silent_require _) fun data => ?_
  refine .silent_bind (silent_require _) fun flag => ?_
  exact .silent_bind (silent_require _) fun enable => each_logics [_, _, _]

theorem each_addStream (p : Plan) (f : Fifo) : (p.addStream f).Each Item.KeepsInterface := by
  refine .silent_bind f.silent_checkSides fun _ => .silent_bind (p.silent_streamWidth f) fun w => ?_
  refine .bind (each_signals _) fun _ => .ite (fun _ => each_connectExternal f) fun _ => ?_
  refine .bind (each_cell _) fun _ => .ite (fun _ => ?_) fun _ => .pure
  exact each_logics [_]

theorem each_declareBus (p : Plan) (arg : String) (width : Int) :
    (p.declareBus arg width).Each Item.KeepsInterface := by
  refine .add fun i hi => ?_
  obtain ⟨x, hx, rfl⟩ := List.mem_map.1 hi
  exact reserved_busPort arg hx

theorem each_bindBus (p : Plan) (c : Placement) (a : Arg) (tap : Expr) :
    (p.bindBus c a tap).Each Item.KeepsInterface := by
  refine .silent_bind (p.silent_dataWidth c a) fun w => .bind (p.each_declareBus _ _) fun _ => ?_
  split
  · exact .throw
  · refine .ite (fun _ => ?_) fun _ => .pure
    exact .silent_bind (silent_note _ _ _ _) fun _ => .pure

theorem keeps_channelItems (p : Plan) (arg channel : String) (width : Int) :
    ∀ i ∈ p.channelItems arg channel width, i.KeepsInterface := by
  intro i hi
  obtain ⟨role, hrole, rfl⟩ := List.mem_map.1 hi
  have hstream : role ∈ streamRoles := by
    unfold channelSide at hrole
    split at hrole
    · exact List.mem_append_left _ hrole
    · exact List.mem_append_right _ hrole
  split
  · trivial
  · exact reserved_channelWire arg channel hstream

theorem each_bindChannels (p : Plan) (c : Placement) (a : Arg) (tap : Expr) :
    (p.bindChannels c a tap).Each Item.KeepsInterface := by
  refine .silent_bind (p.silent_dataWidth c a) fun w => .bind (.add fun i hi => ?_) fun _ => ?_
  · obtain ⟨channel, -, hi⟩ := List.mem_flatMap.1 hi
    exact p.keeps_channelItems _ channel w i hi
  · refine .ite (fun _ => .bind .throw fun _ => ?_) fun _ => ?_
    all_goals
      exact .silent_bind (silent_note _ _ _ _) fun _ =>
        .silent_bind (silent_modify fun _ => rfl) fun _ => .pure

theorem each_bindArg (p : Plan) (c : Placement) (a : Arg) (tap : Expr) :
    (p.bindArg c a tap).Each Item.KeepsInterface := by
  unfold bindArg
  split
  · exact .silent_bind (silent_require _) fun _ => .pure
  · exact .of_silent (reads_bindStream c a _).silent
  · exact .of_silent (reads_bindStream c a _).silent
  · exact p.each_bindBus c a tap
  · exact p.each_bindChannels c a tap
  · exact .throw

theorem each_bindArgs (p : Plan) (c : Placement) (taps : List (String × Pipeline))
    (as : List Arg) : (p.bindArgs c taps as).Each Item.KeepsInterface := by
  induction as with
  | nil => exact .pure
  | cons a as ih => exact .bind (p.each_bindArg c a _) fun _ => .bind ih fun _ => .pure

theorem each_delayArg (p : Plan) (c : Placement) (a : Arg) :
    (p.delayArg c a).Each Item.KeepsInterface := by
  unfold delayArg
  refine .ite (fun _ => .bind .throw fun _ => ?_) fun _ => ?_
  all_goals
    refine .ite (fun _ => .pure) fun _ => .silent_bind (p.silent_argSource c a) fun s => ?_
    refine .bind (each_pipeline _ _) fun _ => ?_
    exact .silent_bind (silent_modify fun _ => rfl) fun _ => .pure

theorem each_delayArgs (p : Plan) (c : Placement) (as : List Arg) :
    (p.delayArgs c as).Each Item.KeepsInterface := by
  induction as with
  | nil => exact .pure
  | cons a as ih => exact .bind (p.each_delayArg c a) fun _ => .bind ih fun _ => .pure

theorem each_startChild (level : Nat) (c : Placement) :
    (startChild level c).Each Item.KeepsInterface := by
  refine .ite (fun _ => .bind ?_ fun _ => .pure) fun _ => ?_
  · exact .add (List.forall_mem_cons.2 ⟨trivial, List.forall_mem_singleton.2 trivial⟩)
  rw [map_eq_pure_bind]
  refine .bind ?_ fun _ => .pure
  refine .silent_bind (silent_requireControls c _) fun _ => .bind (each_signals _) fun _ => ?_
  refine .bind (each_pipeline _ _) fun _ => .bind (each_pipeline _ _) fun _ => ?_
  exact .bind (each_pipeline _ _) fun _ => .bind (each_logics _) fun _ => .pure

theorem each_addChild (p : Plan) (c : Placement) : (p.addChild c).Each Item.KeepsInterface := by
  rw [p.addChild_eq c]
  refine .bind (each_pipeline _ _) fun _ => .bind (p.each_delayArgs c _) fun taps => ?_
  refine .bind (each_startChild _ c) fun _ => .bind ?_ fun _ => .pure
  exact .bind (p.each_bindArgs c taps _) fun _ => each_cell _

theorem each_addChildren (p : Plan) (cs : List Placement) :
    (p.addChildren cs).Each Item.KeepsInterface := by
  induction cs with
  | nil => exact .pure
  | cons c cs ih => exact .bind (p.each_addChild c) fun _ => .bind ih fun _ => .pure

theorem each_addAdapters (p : Plan) : p.addAdapters.Each Item.KeepsInterface := by
  refine .ite (fun _ => .silent_bind silent_get fun d => .forM _ fun u _ => ?_) fun _ => .pure
  refine .bind (p.each_declareBus _ _) fun _ => .silent_bind silent_get fun _ => ?_
  exact each_cell _

/-- What happens between the interface and the streams. -/
def prepare (p : Plan) : Build Unit := do
  requireHandshake (← Build.module) handshakePorts
  Build.add resetItems
  declareControl p.options.registerLevel

/-- What happens after the streams. -/
def finish (p : Plan) : Build Unit := do
  let finished ← p.addChildren p.children
  p.addAdapters
  Build.add ((controlLogic p.options.registerLevel finished).map .logic)
  Build.note p.task.name .debug "generated module"
    [("instances", .number p.children.length), ("fifos", .number p.task.fifoTable.length)]

theorem build_eq_of_no_skeleton (hskeleton : p.parts.skeleton? p.task.name = none) : p.build = (do
    p.deriveInterface
    p.prepare
    p.task.fifos.forM p.addStream
    p.finish) := by
  unfold build declareInterface prepare finish
  rw [hskeleton]
  simp only [bind_assoc]
  rfl

theorem each_prepare (p : Plan) : p.prepare.Each Item.KeepsInterface := by
  refine .silent_bind silent_module fun m => .silent_bind (silent_requireHandshake m _) fun _ => ?_
  exact .bind each_resetItems fun _ => each_declareControl _

theorem each_finish (p : Plan) : p.finish.Each Item.KeepsInterface := by
  refine .bind (p.each_addChildren _) fun _ => .bind p.each_addAdapters fun _ => ?_
  exact .bind (each_logics _) fun _ => .of_silent (silent_note _ _ _ _)

theorem Interface.of_each {α : Type} {b : Build α} (hb : b.Each Item.KeepsInterface) {d d' : Draft}
    {a : α} (h : b d = .ok a d') (hi : p.Interface d.module) : p.Interface d'.module := by
  obtain ⟨items, hitems, hkeep⟩ := hb _ _ _ h
  exact hi.addAll hitems hkeep

/-- The module of a plan when its interface was just derived, or when it is complete. -/
inductive Yields (p : Plan) : Module → Prop where
  | derived {d : Draft} (h : p.deriveInterface { module := .new p.task.name } = .ok () d) :
      Yields p d.module
  | complete {d : Draft} (h : p.build { module := .new p.task.name } = .ok () d) :
      Yields p d.module

theorem Yields.interface (hskeleton : p.parts.skeleton? p.task.name = none)
    (hports : p.task.ports ≠ []) (h : p.Yields m) : p.Interface m := by
  cases h with
  | derived h => exact interface_of_deriveInterface hports rfl h
  | complete h =>
    rw [build_eq_of_no_skeleton hskeleton] at h
    obtain ⟨⟨⟩, d₁, hderive, h⟩ := bind_ok.1 h
    obtain ⟨⟨⟩, d₂, hprepare, h⟩ := bind_ok.1 h
    obtain ⟨⟨⟩, d₃, hstreams, hfinish⟩ := bind_ok.1 h
    have hi₁ := interface_of_deriveInterface hports rfl hderive
    have hi₂ := hi₁.of_each p.each_prepare hprepare
    have hi₃ := hi₂.of_each (.forM _ fun f _ => p.each_addStream f) hstreams
    exact hi₃.of_each p.each_finish hfinish

end Plan

/-- The side of the composite that an external stream is connected to. -/
def Fifo.outerSide (f : Fifo) : StreamSide := if f.consumer.isSome then readSide else writeSide

/-- The logic between an external stream and the ports that are named after it. -/
def Fifo.boundary (f : Fifo) : List Logic :=
  let wire (role : String) : String := streamWire f.name role
  let port (role : String) : String := f.name ++ role
  [if f.consumer.isSome then .assign (wire f.outerSide.data) (.ident (port f.outerSide.data))
   else .assign (port f.outerSide.data) (.ident (wire f.outerSide.data)),
   .assign (wire f.outerSide.flag) (.ident (port f.outerSide.flag)),
   .assign (port f.outerSide.enable) (.ident (wire f.outerSide.enable))]

theorem require_of_ok {α : Type} {e : Except NoSuchPort α} {a a' : α} {d d' : Draft}
    (he : e = .ok a) (h : Build.require e d = .ok a' d') : a' = a ∧ d' = d := by
  subst he
  cases h
  exact ⟨rfl, rfl⟩

/-- If the three roles are looked up under their plain names, the stream is connected to them. -/
theorem logics_connectExternal {f : Fifo} {d d' : Draft}
    (hlookup : ∀ role ∈ f.outerSide.suffixes,
      ∃ r, d.module.portOf f.name role = .ok r ∧ r.name = f.name ++ role)
    (h : connectExternal f d = .ok () d') : f.boundary ⊆ d'.module.logics := by
  obtain ⟨data, hdata, hdname⟩ := hlookup f.outerSide.data (by simp [StreamSide.suffixes])
  obtain ⟨flag, hflag, hfname⟩ := hlookup f.outerSide.flag (by simp [StreamSide.suffixes])
  obtain ⟨enable, henable, hename⟩ := hlookup f.outerSide.enable (by simp [StreamSide.suffixes])
  unfold connectExternal at h
  obtain ⟨m, d₁, hm, hrest⟩ := bind_ok.1 h
  cases hm
  obtain ⟨_, _, hdata', hrest⟩ := bind_ok.1 hrest
  obtain ⟨rfl, rfl⟩ := require_of_ok hdata hdata'
  obtain ⟨_, _, hflag', hrest⟩ := bind_ok.1 hrest
  obtain ⟨rfl, rfl⟩ := require_of_ok hflag hflag'
  obtain ⟨_, _, henable', hadd⟩ := bind_ok.1 hrest
  obtain ⟨rfl, rfl⟩ := require_of_ok henable henable'
  obtain ⟨items, hitems, rfl⟩ := adds_add _ _ _ _ hadd
  rw [Module.addAll_eq hitems, Module.logics_pushAll, hdname, hfname, hename]
  refine List.subset_append_of_subset_right _ fun l hl => ?_
  simpa [Fifo.boundary, Fifo.outerSide, logicsOf, Item.logic?] using hl

theorem Build.Adds.logics_subset {α : Type} {b : Build α} {P : Module → List Item → α → Prop}
    (hb : b.Adds P) {d d' : Draft} {a : α} (h : b d = .ok a d') :
    d.module.logics ⊆ d'.module.logics := by
  obtain ⟨items, hitems, -⟩ := hb _ _ _ h
  rw [Module.addAll_eq hitems, Module.logics_pushAll]
  exact List.subset_append_left _ _

namespace Plan

variable {p : Plan} {m : Module} {q : TaskPort}

/-- An external stream is connected to a declared port of its name, if that is plain. -/
theorem Interface.boundary_of_addStream {f : Fifo} (hf : f.isExternal = true) {d d' : Draft}
    (hi : p.Interface d.module) (hq : q ∈ p.task.ports) (hname : q.name = f.name)
    (hroles : q.roles = f.outerSide.suffixes) (hplain : ∀ role ∈ q.roles, p.task.Plain q role)
    (h : p.addStream f d = .ok () d') : f.boundary ⊆ d'.module.logics := by
  unfold addStream at h
  obtain ⟨⟨⟩, d₁, hsides, h⟩ := bind_ok.1 h
  obtain ⟨width, d₂, hwidth, h⟩ := bind_ok.1 h
  obtain ⟨⟨⟩, d₃, hwires, h⟩ := bind_ok.1 h
  rw [if_pos hf] at h
  have hi₁ := hi.of_each (.of_silent f.silent_checkSides) hsides
  have hi₂ := hi₁.of_each (.of_silent (p.silent_streamWidth f)) hwidth
  have hi₃ := hi₂.of_each (each_signals _) hwires
  refine logics_connectExternal (fun role hrole => ?_) h
  rw [← hroles] at hrole
  obtain ⟨r, hr, hgives⟩ := hi₃.given q hq role hrole
  refine ⟨r, ?_, hname ▸ hgives.name⟩
  rw [← hname]
  exact (hi₃.portOf_eq_iff hrole hr hgives.name).2 (hplain role hrole)

theorem boundary_of_build (hskeleton : p.parts.skeleton? p.task.name = none) {f : Fifo}
    (hf : f ∈ p.task.fifoTable) (hext : f.isExternal = true) (hq : q ∈ p.task.ports)
    (hname : q.name = f.name) (hroles : q.roles = f.outerSide.suffixes)
    (hplain : ∀ role ∈ q.roles, p.task.Plain q role) {d : Draft}
    (h : p.build { module := .new p.task.name } = .ok () d) :
    f.boundary ⊆ d.module.logics := by
  have hstep (f : Fifo) := p.each_addStream f
  rw [build_eq_of_no_skeleton hskeleton] at h
  obtain ⟨⟨⟩, d₁, hderive, h⟩ := bind_ok.1 h
  obtain ⟨⟨⟩, d₂, hprepare, h⟩ := bind_ok.1 h
  obtain ⟨⟨⟩, d₃, hstreams, hfinish⟩ := bind_ok.1 h
  obtain ⟨before, after, d₄, d₅, hsplit, hbefore, hf₄, hafter⟩ :=
    forM_mem (Task.mem_fifos.2 hf) hstreams
  have hi₁ := interface_of_deriveInterface (List.ne_nil_of_mem hq) rfl hderive
  have hi₂ := hi₁.of_each p.each_prepare hprepare
  have hi₄ := hi₂.of_each (.forM before fun f _ => hstep f) hbefore
  refine List.Subset.trans (hi₄.boundary_of_addStream hext hq hname hroles hplain hf₄) ?_
  refine List.Subset.trans (Adds.logics_subset (Each.forM after fun f _ => hstep f) hafter) ?_
  exact Adds.logics_subset p.each_finish hfinish

/-- A child's stream that is bound to plain roles. -/
theorem bindStream_named {c : Placement} {a : Arg} {roles : List String} (d : Draft)
    (h : ∀ role ∈ roles, ∃ r, c.module.portOf a.port role = .ok r ∧ r.name = a.port ++ role) :
    bindStream c a roles d = .ok (roles.map fun role =>
      ⟨a.port ++ role, .ident (streamWire a.name role)⟩) d := by
  induction roles with
  | nil => rfl
  | cons role roles ih =>
    obtain ⟨r, hr, hname⟩ := h role (by simp)
    refine bind_ok.2 ⟨r, d, by rw [hr]; rfl, ?_⟩
    refine bind_ok.2 ⟨_, d, ih fun role' h' => h role' (by simp [h']), ?_⟩
    rw [hname]
    rfl

/-- The bindings of an argument by the plain names of its roles. -/
theorem bindArg_named {o : Plan} {c : Placement} {a : Arg} {tap : Expr} (d : Draft)
    (hcat : a.category = q.category) (hport : a.port = q.name)
    (h : ∀ role ∈ q.roles, ∃ r, c.module.portOf q.name role = .ok r ∧ r.name = q.name ++ role) :
    (q.category = .scalar → o.bindArg c a tap d = .ok [⟨q.name, tap⟩] d) ∧
    (q.category.isStream = true → o.bindArg c a tap d = .ok (q.roles.map fun role =>
      ⟨q.name ++ role, .ident (streamWire a.name role)⟩) d) := by
  rw [← hport] at h ⊢
  refine ⟨fun hc => ?_, fun hs => ?_⟩
  · obtain ⟨r, hr, hname⟩ := h "" (by simp [TaskPort.roles, hc])
    rw [bindArg, hcat, hc]
    refine bind_ok.2 ⟨r, d, by rw [hr]; rfl, ?_⟩
    rw [hname, String.append_empty]
    rfl
  · rw [bindArg, hcat]
    unfold TaskPort.roles at h ⊢
    cases hc : q.category <;> rw [hc] at hs h <;> try cases hs
    · exact bindStream_named d h
    · exact bindStream_named d h

/-! ### The lookup and the interface agree -/

end Plan

/-- In a composite without a skeleton, the lookup of a declared port gives the very port that was
added for it, in each of its roles, exactly if the port is plain in that role.  Plain ports in
different roles, or of different names, are never looked up as one port.  Whoever binds an argument
to a port with plain roles binds it to these ports, and an external stream is connected to the
declared port of its name. -/
theorem interface_lookup_iff {p : Plan} {m : Module}
    (hskeleton : p.parts.skeleton? p.task.name = none) (hm : p.Yields m) :
    ∀ q ∈ p.task.ports,
      (∀ role ∈ q.roles, ∃ r ∈ m.ports, p.Gives q role r ∧
        (m.portOf q.name role = .ok r ↔ p.task.Plain q role) ∧
        ∀ q' ∈ p.task.ports, ∀ role' ∈ q'.roles, p.task.Plain q role → p.task.Plain q' role' →
          m.portOf q'.name role' = .ok r → q' = q ∧ role' = role) ∧
      ((∀ role ∈ q.roles, p.task.Plain q role) →
        (∀ (o : Plan) (c : Placement) (a : Arg) (tap : Expr) (d : Draft), c.module = m →
          a.category = q.category → a.port = q.name →
          (q.category = .scalar → o.bindArg c a tap d = .ok [⟨q.name, tap⟩] d) ∧
          (q.category.isStream = true → o.bindArg c a tap d = .ok (q.roles.map fun role =>
            ⟨q.name ++ role, .ident (streamWire a.name role)⟩) d)) ∧
        ∀ f ∈ p.task.fifoTable, f.isExternal = true → q.name = f.name →
          q.roles = f.outerSide.suffixes → ∀ d,
          p.build { module := .new p.task.name } = .ok () d →
            f.boundary ⊆ d.module.logics) := by
  intro q hq
  have hi := hm.interface hskeleton (List.ne_nil_of_mem hq)
  refine ⟨fun role hrole => ?_, fun hplain => ⟨fun o c a tap d hc hcat hport => ?_, ?_⟩⟩
  · obtain ⟨r, hr, hgives⟩ := hi.given q hq role hrole
    have hiff := hi.portOf_eq_iff hrole hr hgives.name
    refine ⟨r, hr, hgives, hiff, fun q' hq' role' hrole' _ hplain' hlookup => ?_⟩
    obtain ⟨r', hr', hgives'⟩ := hi.given q' hq' role' hrole'
    rw [(hi.portOf_eq_iff hrole' hr' hgives'.name).2 hplain'] at hlookup
    cases hlookup
    exact hi.eq_of_names hq' hq hrole' hrole (hgives'.name.symm.trans hgives.name)
  · refine Plan.bindArg_named d hcat hport fun role hrole => ?_
    obtain ⟨r, hr, hgives⟩ := hi.given q hq role hrole
    exact ⟨r, hc ▸ (hi.portOf_eq_iff hrole hr hgives.name).2 (hplain role hrole), hgives.name⟩
  · intro f hf hext hname hroles d h
    exact Plan.boundary_of_build hskeleton hf hext hq hname hroles hplain h

def sinkTask : Task := { name := "A", level := .leaf }

def sinkModule : Module :=
  { name := "A", ports := basePorts ++ streamPorts "in" readSide true 32 }

/-- A composite with the streams `x` and `other`, whose only instance reads `x`. -/
def relayPlan (other : String) : Plan where
  options := {}
  program := { top := "Top", taskTable := [sinkTask] }
  parts := { modules := [("A", sinkModule)] }
  task := { name := "Mid", level := .composite
            ports := [⟨"x", .istream, "int", 32⟩, ⟨other, .istream, "int", 32⟩]
            childTable := [⟨"A", [⟨0, [⟨"x", .istream, "in"⟩]⟩]⟩]
            fifoTable := [⟨"x", 0, none, some ⟨"A", 0⟩⟩] }
  children := [⟨⟨sinkTask, 0, 0, [⟨"x", .istream, "in"⟩]⟩, sinkModule⟩]

/-- Whether the module of a plan can be built. -/
def Plan.completes (p : Plan) (name : String) : Bool :=
  match p.build { module := .new name } with
  | .ok .. => true
  | .error .. => false

theorem Plan.build_of_completes {p : Plan} {name : String} (h : p.completes name = true) :
    ∃ d, p.build { module := .new name } = .ok () d := by
  unfold completes at h
  split at h
  · rename_i d hd
    exact ⟨d, hd⟩
  · cases h

theorem build_relay : ∃ d, (relayPlan "y").build { module := .new "Mid" } = .ok () d :=
  Plan.build_of_completes (by decide +kernel)

theorem interface_lookup_relay :
    ∃ d, (relayPlan "y").build { module := .new "Mid" } = .ok () d ∧
      (∃ r, d.module.portOf "x" "_dout" = .ok r ∧ r.name = "x_dout") ∧
      .assign "x__dout" (.ident "x_dout") ∈ d.module.logics := by
  obtain ⟨d, hd⟩ := build_relay
  have hplain : ∀ role ∈ TaskPort.roles ⟨"x", .istream, "int", 32⟩,
      (relayPlan "y").task.Plain ⟨"x", .istream, "int", 32⟩ role := by
    decide
  obtain ⟨hlookup, hconnect⟩ := interface_lookup_iff (p := relayPlan "y") rfl (.complete hd)
    ⟨"x", .istream, "int", 32⟩ (by decide)
  obtain ⟨r, -, hgives, hiff, -⟩ := hlookup "_dout" (by decide)
  refine ⟨d, hd, ⟨r, hiff.2 (hplain _ (by decide)), hgives.name⟩, ?_⟩
  have hboundary := (hconnect hplain).2 ⟨"x", 0, none, some ⟨"A", 0⟩⟩ (by decide) (by decide) rfl
    rfl d hd
  refine hboundary (by rw [show "x__dout" = streamWire "x" "_dout" by decide]; exact .head _)

/-- If the other stream is called `x_V`, both names are looked up as its ports. -/
theorem lookup_crossed : ∃ d r,
    (relayPlan "x_V").deriveInterface { module := .new "Mid" } = .ok () d ∧
      (relayPlan "x_V").Gives ⟨"x_V", .istream, "int", 32⟩ "_dout" r ∧
      d.module.portOf "x_V" "_dout" = .ok r ∧ d.module.portOf "x" "_dout" = .ok r :=
  ⟨_, ⟨"x_V_dout", .input, BitRange.bits 32⟩, rfl, ⟨rfl, _, rfl, .head _⟩, rfl, rfl⟩

end TaskLoom
