import TaskLoom.Proofs.Composite.Assembly
import TaskLoom.Proofs.Composite.ChannelNames
import TaskLoom.Proofs.Composite.Generated
import TaskLoom.Proofs.Graph.Acceptance
import TaskLoom.Proofs.Graph.Reachable

/-!
# Channels through the levels of a program

A memory with channels belongs to the top task and is used by a leaf further down; the composites in
between pass the channels on (`Program.Relays`).  Each of them finds out from the names of the ports
of its child which channels there are, and names the ports of its own for the next one to find.

A composite declares the ports of the channels that its child shows, and nothing else in it is taken
for such a port if its description and its skeleton have no such name (`Program.Clear`,
`Plan.Assembled.filter_channelPorts`).  So by induction on the way down, each level shows the
channels that the leaf has a port of.

Main statement: at each level the channels that are found are those of the leaf; a composite in
between has exactly the ports of these, and the adapter at the top is bound to the wires of these
and tied off otherwise (`channels_relayed`).
-/

namespace TaskLoom

open Build

section
variable {α β : Type}

/-- Of a list that is made up of parts, only those that are not empty count. -/
theorem flatMap_filter_of_nil {l : List α} {q : α → Bool} {f : α → List β}
    (h : ∀ a ∈ l, q a = false → f a = []) : (l.filter q).flatMap f = l.flatMap f := by
  induction l with
  | nil => rfl
  | cons a l ih =>
    have hrest := ih fun b hb => h b (List.mem_cons_of_mem _ hb)
    cases hq : q a with
    | false => simp [hq, hrest, h a List.mem_cons_self hq]
    | true => simp [hq, hrest]

theorem flatMap_of_nodup [DecidableEq α] {l : List α} (hnd : l.Nodup) {a : α} {f : α → List β}
    (h : ∀ b ∈ l, b ≠ a → f b = []) : l.flatMap f = if a ∈ l then f a else [] := by
  induction l with
  | nil => rfl
  | cons b l ih =>
    obtain ⟨hb, hnd⟩ := List.nodup_cons.1 hnd
    rw [List.flatMap_cons, ih hnd fun c hc => h c (List.mem_cons_of_mem _ hc)]
    by_cases hba : b = a
    · subst hba
      simp [hb]
    · rw [h b List.mem_cons_self hba]
      simp [Ne.symm hba]

end

theorem mem_shownChannels {m : Module} {a : Arg} {ch : String} :
    ch ∈ shownChannels m a ↔ ch ∈ channelNames ∧ m.Exposes a.port ch := by
  rw [shownChannels, List.mem_filter, Bool.not_eq_true', List.isEmpty_eq_false_iff]
  refine and_congr_right fun _ => ?_
  simp only [channelBindings, ne_eq, List.filterMap_eq_nil_iff, Option.map_eq_none_iff,
    Module.findPort?, List.find?_eq_none, Module.Exposes, isChannelPort]
  simp only [not_forall, Bool.and_eq_true, List.any_eq_true]
  grind

theorem nodup_shownChannels (m : Module) (a : Arg) : (shownChannels m a).Nodup :=
  List.Nodup.filter _ (by decide)

/-! ### One level -/

/-- The argument uses the memory of a name. -/
def Arg.uses (a : Arg) (memory : String) : Bool :=
  a.name == memory && a.category.isMmap && a.port != ""

theorem length_memoryUsers (placed : List Instance) (x : String) :
    (memoryUsers placed x).length =
      ((placed.flatMap Instance.args).filter fun a => a.uses x).length := by
  simp [memoryUsers, List.filter_flatMap, List.length_flatMap, Arg.uses]

/-- In the composite `t`, nothing but the channels that it passes on looks like a channel of its
memory `x`: its arguments and declared ports stay apart, and so do the ports of its skeleton. -/
structure Program.Clear (p : Program) (parts : Parts) (t : Task) (x : String) : Prop where
  args : ∀ placed, p.instances t = .ok placed → ∀ i ∈ placed, ∀ a ∈ i.args, Apart x a.name
  ports : parts.skeleton? t.name = none → ∀ q ∈ t.ports, Apart x q.name
  skeleton : ∀ s, parts.skeleton? t.name = some s → ∀ ch ∈ channelNames, ¬ s.Exposes x ch

/-- What an unused port of an adapter is bound to. -/
def tieOff (suffix : String) : Expr :=
  if suffix == readSide.enable || suffix == writeSide.enable then .no
  else if suffix == writeSide.data then .literal "'d0"
  else .absent

theorem channelArg_eq (u : ChannelUse) (ch role : String) : channelArg u ch role =
    if ch ∈ u.channels then .ident (channelWire u.arg ch role) else tieOff role := by
  rw [channelArg, List.contains_eq_mem]
  by_cases h : ch ∈ u.channels
  · rw [if_pos h, if_pos (decide_eq_true h)]
  · rw [if_neg h, if_neg (by simpa using h)]
    rfl

theorem channel_and_role_eq {c c' role role' : String} (hc : c ∈ channelNames)
    (hc' : c' ∈ channelNames) (h : c ++ role = c' ++ role') : c = c' ∧ role = role' := by
  have hlists : c.toList ++ role.toList = c'.toList ++ role'.toList := by
    rw [← String.toList_append, h, String.toList_append]
  obtain rfl := channel_eq_of_append hc hc' hlists
  exact ⟨rfl, String.toList_inj.1 (List.append_cancel_left hlists)⟩

/-- The ports of an adapter on the side of the channels are bound once. -/
theorem mem_channelAdapter (width : Int) (u : ChannelUse) (offset : Expr) {ch role : String}
    (hch : ch ∈ channelNames) (hrole : role ∈ (channelSide ch).suffixes) {e : Expr} :
    ⟨ch ++ role, e⟩ ∈ (channelAdapter width u offset).ports ↔ e = channelArg u ch role := by
  -- the names of the other ports differ in their first two letters
  have hheads : ∀ c ∈ channelNames, ∀ r ∈ (channelSide c).suffixes,
      (c ++ r).toList.take 2 ∈ [['r', 'e'], ['w', 'r']] := by
    decide
  have hothers : ∀ n ∈ ["clk", "rst", "offset"] ++ busPorts.map fun x =>
      "m_axi_" ++ x.1 ++ x.2.name, n.toList.take 2 ∉ [['r', 'e'], ['w', 'r']] := by
    decide +kernel
  unfold channelAdapter
  rw [List.mem_append]
  constructor
  · rintro (h | h)
    · refine absurd (hheads ch hch role hrole) (hothers _ ?_)
      have hname := List.mem_map_of_mem (f := Binding.name) h
      simpa [List.map_append, List.map_map, Function.comp_def] using hname
    · obtain ⟨c, hc, h⟩ := List.mem_flatMap.1 h
      obtain ⟨r, hr, he⟩ := List.mem_map.1 h
      rw [Binding.mk.injEq] at he
      obtain ⟨rfl, rfl⟩ := channel_and_role_eq hc hch he.1
      exact he.2.symm
  · rintro rfl
    exact .inr (List.mem_flatMap.2 ⟨ch, hch, List.mem_map.2 ⟨role, hrole, rfl⟩⟩)

namespace Plan

variable {p : Plan} {x ch : String}

/-- No port of the interface looks like one of a channel. -/
theorem OuterName.not_channelPort {n : String} (h : p.OuterName n)
    (hplaced : p.program.instances p.task = .ok (p.children.map Placement.inst))
    (hclear : p.program.Clear p.parts p.task x) (hch : ch ∈ channelNames) :
    isChannelPort x ch n = false := by
  unfold OuterName at h
  cases hs : p.parts.skeleton? p.task.name with
  | some s =>
    rw [hs] at h
    obtain ⟨r, hr, rfl⟩ := List.mem_map.1 h
    rw [Bool.eq_false_iff]
    exact fun hname => hclear.skeleton s hs ch hch ⟨r, hr, hname⟩
  | none =>
    rw [hs] at h
    rcases h with h | ⟨stem, hstem, role, hrole, rfl⟩
    · exact not_channelPort_handshake h
    · have hapart : Apart x stem := by
        rcases hstem with ⟨q, hq, rfl⟩ | ⟨c, hc, a, ha, rfl⟩
        · exact hclear.ports hs q hq
        · exact hclear.args _ hplaced _ (List.mem_map_of_mem hc) a ha
      exact hapart.not_channelPort hch hrole

theorem filter_busOf (memory : String) (width : Int) :
    (p.busOf memory width).filter (fun r => isChannelPort x ch r.name) = [] := by
  rw [List.filter_eq_nil_iff]
  intro r hr
  obtain ⟨b, hb, rfl⟩ := List.mem_map.1 hr
  rw [not_channelPort_busPort memory hb]
  simp

/-- Of the ports of several channels, those of one are found. -/
theorem filter_channelPorts {shown : List String} (hnd : shown.Nodup)
    (hshown : shown ⊆ channelNames) (hch : ch ∈ channelNames) (width : Int) :
    (shown.flatMap fun c => p.channelPorts x c width).filter (fun r => isChannelPort x ch r.name) =
      if ch ∈ shown then p.channelPorts x ch width else [] := by
  rw [List.filter_flatMap, flatMap_of_nodup hnd (a := ch)]
  · refine if_congr Iff.rfl (List.filter_eq_self.2 fun r hr => ?_) rfl
    obtain ⟨role, hrole, rfl⟩ := List.mem_map.1 hr
    exact isChannelPort_channelWire x hch hrole
  · intro c hc hne
    rw [List.filter_eq_nil_iff]
    intro r hr
    obtain ⟨role, hrole, rfl⟩ := List.mem_map.1 hr
    rw [not_channelPort_channelWire hch (hshown hc) hne]
    simp

/-- An argument that does not use the memory adds no port that looks like one of its channels. -/
theorem Connects.filter_eq_nil {c : Placement} {l : Link} (h : p.Connects c l)
    (hport : l.arg.port ≠ "") (huses : l.arg.uses x = false) (hapart : Apart x l.arg.name)
    (hch : ch ∈ channelNames) :
    l.growth.ports.filter (fun r => isChannelPort x ch r.name) = [] := by
  cases h with
  | scalar => rfl
  | stream => rfl
  | bus width => exact p.filter_busOf _ width
  | @channels a tap width hcat =>
    have hne : a.name ≠ x := by
      rintro rfl
      simp [Arg.uses, hcat, Category.isMmap, hport] at huses
    simp only
    split
    · rfl
    · rw [List.filter_eq_nil_iff]
      intro r hr
      obtain ⟨c', hc', hr⟩ := List.mem_flatMap.1 hr
      obtain ⟨role, hrole, rfl⟩ := List.mem_map.1 hr
      rw [hapart.not_channelPort_channelWire hne hch (mem_shownChannels.1 hc').1
        (suffixes_channelSide c' hrole)]
      simp

namespace Assembled

variable {m : Module} {iface : List Port} {buffers : List (Fifo × Int)}
  {sites : List Site} {adapters : List (ChannelUse × Expr)}

variable (h : p.Assembled m iface buffers sites adapters)

include h

/-- A memory with one user has one link. -/
theorem sole_link (hsole : (memoryUsers (p.children.map Placement.inst) x).length ≤ 1)
    {i : Instance} (hi : i ∈ p.children.map Placement.inst) {a : Arg} (ha : a ∈ i.args)
    (huses : a.uses x = true) : ∃ s ∈ sites, s.child.inst = i ∧ ∃ l ∈ s.links, l.arg = a ∧
      (sites.flatMap Site.links).filter (fun l => l.arg.uses x) = [l] := by
  obtain ⟨s, hs, hsi, l, hl, rfl⟩ := h.exists_link hi ha
  refine ⟨s, hs, hsi, l, hl, rfl, ?_⟩
  have hargs : (sites.flatMap Site.links).map Link.arg =
      (p.children.map Placement.inst).flatMap Instance.args := by
    rw [← h.children, List.map_flatMap, List.map_map, List.flatMap_map]
    exact List.flatMap_congr fun s hs => (h.realizes s hs).args
  have hlength : ((sites.flatMap Site.links).filter fun l => l.arg.uses x).length ≤ 1 := by
    rw [length_memoryUsers, ← hargs, List.filter_map, List.length_map] at hsole
    exact hsole
  have hmem : l ∈ (sites.flatMap Site.links).filter fun l => l.arg.uses x :=
    List.mem_filter.2 ⟨List.mem_flatMap.2 ⟨s, hs, hl⟩, huses⟩
  obtain ⟨l', hl'⟩ := List.length_eq_one_iff.1
    (Nat.le_antisymm hlength (List.length_pos_of_mem hmem))
  rw [hl'] at hmem ⊢
  rw [List.mem_singleton.1 hmem]

/-- A composite below the top has the ports of the channels that its child shows, and no other port
that looks like one of a channel. -/
theorem filter_channelPorts (htop : p.isTop = false)
    (hplaced : p.program.instances p.task = .ok (p.children.map Placement.inst))
    (hclear : p.program.Clear p.parts p.task x)
    (hports : ∀ i ∈ p.children.map Placement.inst, ∀ a ∈ i.args, a.port ≠ "")
    (hsole : (memoryUsers (p.children.map Placement.inst) x).length ≤ 1)
    {i : Instance} (hi : i ∈ p.children.map Placement.inst) {port : String}
    (ha : ⟨x, .asyncMmap, port⟩ ∈ i.args) :
    ∃ c ∈ p.children, c.inst = i ∧ ∃ width, ∀ ch ∈ channelNames,
      m.ports.filter (fun r => isChannelPort x ch r.name) =
        if ch ∈ shownChannels c.module ⟨x, .asyncMmap, port⟩ then p.channelPorts x ch width
        else [] := by
  have huses : Arg.uses ⟨x, .asyncMmap, port⟩ x = true := by
    simpa [Arg.uses, Category.isMmap] using hports i hi _ ha
  obtain ⟨s, hs, rfl, l, hl, harg, hlink⟩ := h.sole_link hsole hi ha huses
  have hadapters : adapters = [] := by simpa [htop] using h.adapted
  obtain ⟨width, hgrowth, -⟩ := ((h.realizes s hs).connects l hl).of_asyncMmap (by rw [harg])
  refine ⟨s.child, h.children ▸ List.mem_map_of_mem hs, rfl, width, fun ch hch => ?_⟩
  have hiface : iface.filter (fun r => isChannelPort x ch r.name) = [] := by
    rw [List.filter_eq_nil_iff]
    intro r hr
    rw [(h.outer r hr).not_channelPort hplaced hclear hch]
    simp
  have hothers : ∀ l' ∈ sites.flatMap Site.links, l'.arg.uses x = false →
      l'.growth.ports.filter (fun r => isChannelPort x ch r.name) = [] := by
    intro l' hl' hnot
    obtain ⟨s', hs', hl'⟩ := List.mem_flatMap.1 hl'
    obtain ⟨hinst, hin⟩ := h.arg_mem hs' hl'
    exact ((h.realizes s' hs').connects l' hl').filter_eq_nil (hports _ hinst _ hin) hnot
      (hclear.args _ hplaced _ hinst _ hin) hch
  rw [h.ports, hadapters, List.filter_append, List.filter_append, hiface, List.filter_flatMap,
    ← flatMap_filter_of_nil hothers, hlink]
  simp only [List.nil_append, List.flatMap_cons, List.flatMap_nil, List.append_nil, List.filter_nil,
    hgrowth htop, harg]
  exact p.filter_channelPorts (nodup_shownChannels _ _) (fun c hc => (mem_shownChannels.1 hc).1) hch
    width

/-- The top has an adapter for the channels that its child shows. -/
theorem exists_adapter (htop : p.isTop = true) {i : Instance}
    (hi : i ∈ p.children.map Placement.inst) {port : String}
    (ha : ⟨x, .asyncMmap, port⟩ ∈ i.args) :
    ∃ c ∈ p.children, c.inst = i ∧ ∃ cell ∈ m.cells, cell.module = channelPrimitive ∧
      cell.name = x ++ "__m_axi" ∧ ∀ ch ∈ channelNames, ∀ role ∈ (channelSide ch).suffixes,
        (∀ e, ⟨ch ++ role, e⟩ ∈ cell.ports ↔
          e = if ch ∈ shownChannels c.module ⟨x, .asyncMmap, port⟩
            then .ident (channelWire x ch role) else tieOff role) ∧
        (ch ∈ shownChannels c.module ⟨x, .asyncMmap, port⟩ →
          channelWire x ch role ∈ m.signals.map Signal.name) := by
  obtain ⟨s, hs, rfl, l, hl, harg⟩ := h.exists_link hi ha
  have hlink : l ∈ sites.flatMap Site.links := List.mem_flatMap.2 ⟨s, hs, hl⟩
  obtain ⟨width, -, hwires, huse⟩ := ((h.realizes s hs).connects l hl).of_asyncMmap (by rw [harg])
  simp only [harg] at huse hwires
  obtain ⟨⟨u, offset⟩, hadapter, rfl⟩ : ∃ y ∈ adapters,
      y.1 = ⟨x, width, shownChannels s.child.module ⟨x, .asyncMmap, port⟩⟩ := by
    refine List.mem_map.1 ?_
    rw [h.adapted, if_pos htop]
    exact List.mem_flatMap.2 ⟨l, hlink, by rw [huse]; exact List.mem_singleton_self _⟩
  refine ⟨s.child, h.children ▸ List.mem_map_of_mem hs, rfl, p.adapterOf (_, offset),
    h.mem_cells.2 (.inr (.inr ⟨_, hadapter, rfl⟩)), rfl, rfl, fun ch hch role hrole => ⟨?_, ?_⟩⟩
  · intro e
    rw [adapterOf, mem_channelAdapter _ _ _ hch hrole, channelArg_eq]
  · intro hshown
    have hwire : ⟨channelWire x ch role, .wire, p.channelRange ch role width, []⟩ ∈
        p.channelSignals x ch width := List.mem_map_of_mem hrole
    have hsignal := h.signals (List.mem_flatMap.2 ⟨l, hlink, hwires htop ▸
      List.mem_flatMap.2 ⟨ch, hshown, hwire⟩⟩)
    exact List.mem_map.2 ⟨_, hsignal, rfl⟩

end Assembled

end Plan

/-! ### All levels -/

namespace Program

/-- An instance of `u` in `t` has the channels of a memory, which is `x` in `t` and `y` in `u`. -/
structure Passes (p : Program) (t : Task) (x : String) (u : Task) (y : String) : Prop where
  composite : t.isComposite = true
  placed : ∃ placed, p.instances t = .ok placed ∧
    ∃ i ∈ placed, i.task = u ∧ ⟨x, .asyncMmap, y⟩ ∈ i.args

/-- The memory `x` of `t` is passed on to the leaf `leaf`, where it is `z`, and all composites from
`t` down are clear of other names like those of its channels. -/
inductive Relays (p : Program) (parts : Parts) : Task → String → Task → String → Prop where
  | leaf {t : Task} {x : String} (h : t.isComposite = false) : Relays p parts t x t x
  | pass {t u leaf : Task} {x y z : String} (hclear : p.Clear parts t x) (hpass : p.Passes t x u y)
      (h : Relays p parts u y leaf z) : Relays p parts t x leaf z

theorem Passes.places {p : Program} {t u : Task} {x y : String} (h : p.Passes t x u y) :
    p.Places t u := by
  obtain ⟨placed, hplaced, i, hi, rfl, -⟩ := h.placed
  obtain ⟨c, -, hc, -⟩ := (mem_instances hplaced).1 hi
  exact ⟨h.composite, name_mem_childNames hplaced hi, by rw [name_of_task? hc]; exact hc⟩

end Program

theorem Program.Clear.congr {p : Program} {a b : Parts} {t : Task} {x : String}
    (hskel : a.skeletons = b.skeletons) (h : p.Clear a t x) : p.Clear b t x := by
  have hsame : b.skeleton? t.name = a.skeleton? t.name := by
    rw [Parts.skeleton?, Parts.skeleton?, hskel]
  exact ⟨h.args, hsame ▸ h.ports, hsame ▸ h.skeleton⟩

/-- The plan that has built the module of a task on the way down, with the instance that the memory
is passed on to. -/
structure Plan.Level (q : Plan) (final : Parts) (m : Module) (x y : String) (i : Instance) : Prop
    where
  known : q.program.task? q.task.name = some q.task
  made : q.Made final m
  inst : i ∈ q.children.map Placement.inst
  arg : ⟨x, .asyncMmap, y⟩ ∈ i.args
  ports : ∀ i ∈ q.children.map Placement.inst, ∀ a ∈ i.args, a.port ≠ ""
  sole : (memoryUsers (q.children.map Placement.inst) x).length ≤ 1

namespace Plan.Level

variable {q : Plan} {final : Parts} {m : Module} {x y : String} {i : Instance}

theorem filter_channelPorts (h : q.Level final m x y i) (htop : q.isTop = false)
    (hclear : q.program.Clear q.parts q.task x) :
    ∃ below, final.module? i.task.name = some below ∧ ∃ width, ∀ ch ∈ channelNames,
      m.ports.filter (fun r => isChannelPort x ch r.name) =
        if ch ∈ shownChannels below ⟨x, .asyncMmap, y⟩ then q.channelPorts x ch width else [] := by
  obtain ⟨d, hd, rfl⟩ := h.made.built
  obtain ⟨_, _, _, _, hassembled⟩ := assembled_of_build hd
  obtain ⟨c, hc, rfl, width, hports⟩ := hassembled.filter_channelPorts htop h.made.placed hclear
    h.ports h.sole h.inst h.arg
  exact ⟨c.module, h.made.children c hc, width, hports⟩

/-- A composite below the top shows the channels that its child shows. -/
theorem exposes_iff (h : q.Level final m x y i) (htop : q.isTop = false)
    (hclear : q.program.Clear q.parts q.task x) :
    ∃ below, final.module? i.task.name = some below ∧
      ∀ ch ∈ channelNames, m.Exposes x ch ↔ below.Exposes y ch := by
  obtain ⟨below, hbelow, width, hports⟩ := h.filter_channelPorts htop hclear
  refine ⟨below, hbelow, fun ch hch => ?_⟩
  have hexposes : m.Exposes x ch ↔ m.ports.filter (fun r => isChannelPort x ch r.name) ≠ [] := by
    simp [Module.Exposes]
  have hsome : q.channelPorts x ch width ≠ [] := by simp [channelPorts, StreamSide.suffixes]
  rw [hexposes, hports ch hch, ite_ne_right_iff, mem_shownChannels]
  simp [hch, hsome]

theorem exists_adapter (h : q.Level final m x y i) (htop : q.isTop = true) :
    ∃ below, final.module? i.task.name = some below ∧
      ∃ cell ∈ m.cells, cell.module = channelPrimitive ∧ cell.name = x ++ "__m_axi" ∧
        ∀ ch ∈ channelNames, ∀ role ∈ (channelSide ch).suffixes,
          (∀ e, ⟨ch ++ role, e⟩ ∈ cell.ports ↔
            e = if ch ∈ shownChannels below ⟨x, .asyncMmap, y⟩
              then .ident (channelWire x ch role) else tieOff role) ∧
          (ch ∈ shownChannels below ⟨x, .asyncMmap, y⟩ →
            channelWire x ch role ∈ m.signals.map Signal.name) := by
  obtain ⟨d, hd, rfl⟩ := h.made.built
  obtain ⟨_, _, _, _, hassembled⟩ := assembled_of_build hd
  obtain ⟨c, hc, rfl, hadapter⟩ := hassembled.exists_adapter htop h.inst h.arg
  exact ⟨c.module, h.made.children c hc, hadapter⟩

end Plan.Level

section
variable {o : Options} {program : Program} {parts : Parts} {design : Design} {top t u leaf : Task}
  {x y z : String}

variable (hcheck : Program.check (some program) = .ok ())
  (hgen : (generate o program parts).result = .ok design)
  (htop : program.task? program.top = some top)

include hcheck hgen htop

theorem level_of_passes (hreach : program.Reaches top t) (hpass : program.Passes t x u y) :
    ∃ m ∈ design.modules, ∃ (q : Plan) (i : Instance), q.program = program ∧ q.task = t ∧
      q.parts.skeletons = parts.skeletons ∧ i.task = u ∧
      q.Level (generate o program parts).parts m x y i := by
  obtain ⟨order, horder, hmade, -⟩ := made_of_generate hgen
  obtain ⟨top', htop', horder⟩ := Program.topologicalFrom_of_ok horder
  obtain rfl : top = top' := Option.some.inj (htop.symm.trans htop')
  have ht := (horder.mem_iff t).2 ⟨hpass.composite, hreach⟩
  obtain ⟨m, hm, q, -, hprogram, rfl, hq⟩ := hmade t ht
  have hplaced := hprogram ▸ hq.placed
  obtain ⟨placed, hplaced', i, hi, hu, ha⟩ := hpass.placed
  obtain rfl : q.children.map Placement.inst = placed :=
    Except.ok.inj (hplaced.symm.trans hplaced')
  have hknown := horder.childrenFirst.known _ ht
  obtain ⟨hports, hsole⟩ :=
    Program.memoryUsers_of_check hcheck (Program.mem_of_task? hknown) hpass.composite hplaced
  exact ⟨m, hm, q, i, hprogram, rfl, hq.skeletons.trans (generate_frame parts).1, hu,
    hprogram ▸ hknown, hq, hi, ha, hports, hsole x⟩

omit hcheck in
theorem not_top_of_below (hbelow : Relation.TransGen program.Places top t)
    (hknown : program.task? t.name = some t) : t.name ≠ program.top := by
  intro hname
  rw [hname, htop, Option.some.injEq] at hknown
  subst hknown
  obtain ⟨order, horder, -, -⟩ := made_of_generate hgen
  obtain ⟨top', htop', horder⟩ := Program.topologicalFrom_of_ok horder
  obtain rfl : top = top' := Option.some.inj (htop.symm.trans htop')
  obtain ⟨_, hplaces, -⟩ := Relation.TransGen.head'_iff.1 hbelow
  exact horder.childrenFirst.not_cyclic ((horder.mem_iff top).2 ⟨hplaces.composite, .refl⟩) hbelow

/-- The channels that a module on the way down shows are those of the leaf. -/
theorem exposes_iff_of_relays (hrelay : program.Relays parts u y leaf z)
    (hbelow : Relation.TransGen program.Places top u) {m : Module}
    (hm : (generate o program parts).parts.module? u.name = some m) :
    ∃ source, parts.module? leaf.name = some source ∧
      ∀ ch ∈ channelNames, m.Exposes y ch ↔ source.Exposes z ch := by
  induction hrelay generalizing m with
  | @leaf t x hleaf =>
    refine ⟨m, ?_, fun _ _ => Iff.rfl⟩
    rw [← (generate_frame parts).2 t.name fun t' ht' => ?_, hm]
    obtain ⟨_, -, hplaces⟩ := Relation.TransGen.tail'_iff.1 hbelow
    rw [hplaces.known, Option.some.injEq] at ht'
    exact ht' ▸ hleaf
  | @pass t u leaf x y z hclear hpass _ ih =>
    obtain ⟨m', -, q, i, rfl, rfl, hskel, rfl, hlevel⟩ :=
      level_of_passes hcheck hgen htop hbelow.to_reflTransGen hpass
    obtain rfl : m = m' := Option.some.inj (hm.symm.trans hlevel.made.kept)
    have hnot : q.isTop = false :=
      beq_eq_false_iff_ne.2 (not_top_of_below hgen htop hbelow hlevel.known)
    obtain ⟨below, hmodule, hsame⟩ := hlevel.exposes_iff hnot (hclear.congr hskel.symm)
    obtain ⟨source, hsource, hexposes⟩ := ih (hbelow.tail hpass.places) hmodule
    exact ⟨source, hsource, fun ch hch => (hsame ch hch).trans (hexposes ch hch)⟩

/-- At each level of an accepted program that a memory is passed through, from the top down to a
leaf, the channels that are found are those that the leaf has a port of; a composite in between has
exactly the ports of these channels, and the adapter at the top is bound to the wires of these
channels and tied off otherwise. -/
theorem channels_relayed (hreach : program.Reaches top t) (hpass : program.Passes t x u y)
    (hrelay : program.Relays parts u y leaf z) :
    ∃ m ∈ design.modules, ∃ below source, m.name = t.name ∧
      (generate o program parts).parts.module? u.name = some below ∧
      parts.module? leaf.name = some source ∧
      (∀ ch, ch ∈ shownChannels below ⟨x, .asyncMmap, y⟩ ↔
        ch ∈ channelNames ∧ source.Exposes z ch) ∧
      (t ≠ top → program.Clear parts t x → ∀ ch ∈ channelNames,
        (m.ports.filter fun r => isChannelPort x ch r.name).map (fun r => (r.name, r.direction)) =
          if source.Exposes z ch then
            (channelSide ch).suffixes.map fun role =>
              (channelWire x ch role, channelDirection role)
          else []) ∧
      (t = top → ∃ cell ∈ m.cells, cell.module = channelPrimitive ∧ cell.name = x ++ "__m_axi" ∧
        ∀ ch ∈ channelNames, ∀ role ∈ (channelSide ch).suffixes,
          (∀ e, ⟨ch ++ role, e⟩ ∈ cell.ports ↔
            e = if source.Exposes z ch then .ident (channelWire x ch role) else tieOff role) ∧
          (source.Exposes z ch → channelWire x ch role ∈ m.signals.map Signal.name)) := by
  obtain ⟨m, hm, q, i, rfl, rfl, hskel, rfl, hlevel⟩ :=
    level_of_passes hcheck hgen htop hreach hpass
  obtain ⟨below, hmodule⟩ : ∃ below,
      (generate o q.program parts).parts.module? i.task.name = some below := by
    obtain ⟨c, hc, rfl⟩ := List.mem_map.1 hlevel.inst
    exact ⟨_, hlevel.made.children c hc⟩
  obtain ⟨source, hsource, hexposes⟩ := exposes_iff_of_relays hcheck hgen htop hrelay
    (Relation.TransGen.tail' hreach hpass.places) hmodule
  have hshown (ch : String) : ch ∈ shownChannels below ⟨x, .asyncMmap, y⟩ ↔
      ch ∈ channelNames ∧ source.Exposes z ch := by
    rw [mem_shownChannels]
    exact and_congr_right fun hch => hexposes ch hch
  have htask : q.task = top ↔ q.isTop = true := by
    rw [Plan.isTop, beq_iff_eq]
    constructor
    · rintro rfl
      exact Program.name_of_task? htop
    · intro hname
      have hknown := hlevel.known
      rw [hname, htop] at hknown
      exact (Option.some.inj hknown).symm
  refine ⟨m, hm, below, source, hlevel.made.name, hmodule, hsource, hshown, fun hnot hclear => ?_,
    fun h => ?_⟩
  · obtain ⟨below', hmodule', width, hports⟩ :=
      hlevel.filter_channelPorts (Bool.eq_false_iff.2 fun h => hnot (htask.2 h))
        (hclear.congr hskel.symm)
    obtain rfl : below = below' := Option.some.inj (hmodule.symm.trans hmodule')
    intro ch hch
    rw [hports ch hch]
    simp only [hshown, hch, true_and]
    split
    · simp [Plan.channelPorts]
    · rfl
  · obtain ⟨below', hmodule', cell, hcell, hprimitive, hname, hbound⟩ :=
      hlevel.exists_adapter (htask.1 h)
    obtain rfl : below = below' := Option.some.inj (hmodule.symm.trans hmodule')
    refine ⟨cell, hcell, hprimitive, hname, fun ch hch role hrole => ?_⟩
    simpa only [hshown, hch, true_and] using hbound ch hch role hrole

end

def readerTask : Task := { name := "C", level := .leaf }

/-- A composite that has a memory `mem` for its child. -/
def passingTask (name child port : String) : Task where
  name := name
  level := .composite
  childTable := [⟨child, [⟨0, [⟨"mem", .asyncMmap, port⟩]⟩]⟩]

def throughProgram : Program :=
  ⟨"Top", [readerTask, passingTask "Mid" "C" "src", passingTask "Top" "Mid" "mem"]⟩

/-- The leaf has one port of the channel of read data. -/
def readerModule : Module where
  name := "C"
  ports := basePorts ++ ["src_read_data_V_dout", "src_offset"].map fun n => { name := n }

def readerStock : Parts := { modules := [("C", readerModule)] }

theorem passes_mid :
    throughProgram.Passes (passingTask "Mid" "C" "src") "mem" readerTask "src" :=
  ⟨rfl, _, rfl, ⟨readerTask, 0, 0, [⟨"mem", .asyncMmap, "src"⟩]⟩, List.mem_singleton_self _, rfl,
    List.mem_singleton_self _⟩

theorem passes_top : throughProgram.Passes (passingTask "Top" "Mid" "mem") "mem"
    (passingTask "Mid" "C" "src") "mem" :=
  ⟨rfl, _, rfl, ⟨passingTask "Mid" "C" "src", 0, 0, [⟨"mem", .asyncMmap, "mem"⟩]⟩,
    List.mem_singleton_self _, rfl, List.mem_singleton_self _⟩

theorem check_through : Program.check (some throughProgram) = .ok () := by
  with_unfolding_all rfl

theorem channels_relayed_through : ∃ design,
    (generate {} throughProgram readerStock).result = .ok design ∧
      (∃ m ∈ design.modules, m.name = "Mid" ∧
        (m.ports.filter fun r => isChannelPort "mem" "read_data" r.name).map
          (fun r => (r.name, r.direction)) = [("mem_read_data__dout", .input),
            ("mem_read_data__empty_n", .input), ("mem_read_data__read", .output)] ∧
        (m.ports.filter fun r => isChannelPort "mem" "write_addr" r.name) = []) ∧
      ∃ m ∈ design.modules, m.name = "Top" ∧ ∃ cell ∈ m.cells, cell.name = "mem__m_axi" ∧
        ⟨"read_data_dout", .ident "mem_read_data__dout"⟩ ∈ cell.ports ∧
        ⟨"write_addr_write", .no⟩ ∈ cell.ports := by
  have hclear : throughProgram.Clear readerStock (passingTask "Mid" "C" "src") "mem" := by
    refine ⟨fun placed h i hi a ha => ?_, fun _ q hq => ?_, fun s hs => ?_⟩
    · cases h
      obtain rfl := List.mem_singleton.1 hi
      obtain rfl := List.mem_singleton.1 ha
      decide
    · cases hq
    · cases hs
  have hleaf : throughProgram.Relays readerStock readerTask "src" readerTask "src" := .leaf rfl
  have htop : throughProgram.task? throughProgram.top = some (passingTask "Top" "Mid" "mem") := rfl
  have hmid : throughProgram.Reaches (passingTask "Top" "Mid" "mem")
      (passingTask "Mid" "C" "src") := .single passes_top.places
  have hok : (generate {} throughProgram readerStock).result.isOk = true := by decide +kernel
  cases hgen : (generate {} throughProgram readerStock).result with
  | error e =>
    rw [hgen] at hok
    cases hok
  | ok design =>
    refine ⟨design, rfl, ?_, ?_⟩
    · obtain ⟨m, hm, _, source, hname, -, hsource, -, hports, -⟩ :=
        channels_relayed check_through hgen htop hmid passes_mid hleaf
      cases hsource
      have hshown := hports (by decide) hclear
      refine ⟨m, hm, hname, (hshown _ (by decide)).trans (by decide +kernel), ?_⟩
      exact List.map_eq_nil_iff.1 ((hshown "write_addr" (by decide)).trans (by decide +kernel))
    · obtain ⟨m, hm, _, source, hname, -, hsource, -, -, hadapter⟩ :=
        channels_relayed check_through hgen htop .refl passes_top (.pass hclear passes_mid hleaf)
      cases hsource
      obtain ⟨cell, hcell, -, hinst, hbound⟩ := hadapter rfl
      refine ⟨m, hm, hname, cell, hcell, hinst, ?_, ?_⟩
      · refine ((hbound "read_data" (by decide) "_dout" (by decide)).1 _).2 ?_
        rw [if_pos (by decide +kernel)]
        exact congrArg _ (by decide)
      · refine ((hbound "write_addr" (by decide) "_write" (by decide)).1 _).2 ?_
        rw [if_neg (by decide +kernel)]
        rfl

/-- A skeleton of the composite in between that has a port of a channel for writing. -/
def writingSkeleton : Module where
  name := "Mid"
  ports := basePorts ++ ["mem", "mem_write_addr__din"].map fun n => { name := n }

/-- A channel that a skeleton has a port of is found, although the leaf does not have it. -/
theorem skeleton_channel_shown :
    Program.check (some throughProgram) = .ok () ∧
    throughProgram.Passes (passingTask "Top" "Mid" "mem") "mem" (passingTask "Mid" "C" "src")
      "mem" ∧
    throughProgram.Passes (passingTask "Mid" "C" "src") "mem" readerTask "src" ∧
    (∀ r ∈ readerModule.ports, Text.beginsWith r.name "src_" = true →
      r.name = "src_offset" ∨ ∃ ch ∈ channelNames, isChannelPort "src" ch r.name = true) ∧
    ∃ design below, (generate {} throughProgram
        { readerStock with skeletons := [("Mid", writingSkeleton)] }).result = .ok design ∧
      (∀ m ∈ design.modules, ∀ r ∈ m.ports, Text.beginsWith r.name "mem_" = true →
        ∃ ch ∈ channelNames, isChannelPort "mem" ch r.name = true) ∧
      below ∈ design.modules ∧ below.name = "Mid" ∧
      "write_addr" ∈ shownChannels below ⟨"mem", .asyncMmap, "mem"⟩ ∧
      ¬ readerModule.Exposes "src" "write_addr" := by
  refine ⟨check_through, passes_top, passes_mid, by decide +kernel, ?_⟩
  have hok : (generate {} throughProgram
      { readerStock with skeletons := [("Mid", writingSkeleton)] }).result.toOption.any
        (fun d => (d.modules.any fun m => m.name == "Mid" &&
          (shownChannels m ⟨"mem", .asyncMmap, "mem"⟩).contains "write_addr") &&
          decide (∀ m ∈ d.modules, ∀ r ∈ m.ports, Text.beginsWith r.name "mem_" = true →
            ∃ ch ∈ channelNames, isChannelPort "mem" ch r.name = true)) = true := by
    decide +kernel
  cases hgen : (generate {} throughProgram
      { readerStock with skeletons := [("Mid", writingSkeleton)] }).result with
  | error e =>
    rw [hgen] at hok
    cases hok
  | ok design =>
    rw [hgen] at hok
    obtain ⟨hmid, hnames⟩ := Bool.and_eq_true_iff.1 hok
    obtain ⟨m, hm, hshown⟩ := List.any_eq_true.1 hmid
    simp only [Bool.and_eq_true, beq_iff_eq, List.contains_iff_mem] at hshown
    exact ⟨design, m, rfl, of_decide_eq_true hnames, hm, hshown.1, hshown.2, by decide +kernel⟩

end TaskLoom
