import TaskLoom.Proofs.Composite.Orderly

/-!
# External streams

An external stream is connected to three ports of the composite, which are looked up by their roles
(`Fifo.outerPorts`).  In a role that leads out of the module its port is driven, and in any other
role the port drives a wire of the stream (`Fifo.link`).

While the streams are added, only ports in roles that lead out are driven, and no such port is read
(`Sparing`).  So the module stays orderly as long as the streams look up different ports
(`orderly_addStreams`).  What a lookup finds at that time is found for good (`portOf_grown`).
-/

namespace TaskLoom

open Build

/-- The roles of a stream in which the composite drives its port. -/
def outgoingRoles : List String := [readSide.enable, writeSide.data, writeSide.enable]

/-- A name like that of a port that leads out. -/
def Outgoing (name : String) : Prop := ∃ stem, ∃ role ∈ outgoingRoles, name = stem ++ role

theorem roles_apart : ∀ role ∈ streamRoles, ∀ role' ∈ streamRoles, role ≠ role' →
    role.toList.isSuffixOf role'.toList = false ∧ role'.toList.isSuffixOf role.toList = false := by
  decide

theorem append_role_ne {s s' role role' : String} (h : role ∈ streamRoles)
    (h' : role' ∈ streamRoles) (hne : role ≠ role') : s ++ role ≠ s' ++ role' :=
  append_ne_append (roles_apart role h role' h' hne).1 (roles_apart role h role' h' hne).2

theorem outgoingRoles_subset : outgoingRoles ⊆ streamRoles := by decide

theorem outgoing_append_iff {stem role : String} (h : role ∈ streamRoles) :
    Outgoing (stem ++ role) ↔ role ∈ outgoingRoles := by
  refine ⟨fun hstem => ?_, fun hout => ⟨stem, role, hout, rfl⟩⟩
  obtain ⟨stem', role', hout, he⟩ := hstem
  by_contra hne
  exact append_role_ne h (outgoingRoles_subset hout) (fun heq => hne (heq ▸ hout)) he

/-- The handshake does not look like a stream. -/
theorem not_outgoing_handshake : ∀ n ∈ handshakePorts, ¬ Outgoing n := by
  rintro n hn ⟨stem, role, hrole, he⟩
  have apart : ∀ n ∈ handshakePorts, ∀ role ∈ outgoingRoles,
      n.toList.isSuffixOf role.toList = false ∧ role.toList.isSuffixOf n.toList = false := by
    decide
  obtain ⟨h, h'⟩ := apart n hn role hrole
  exact append_ne_append (s := "") h h' (by rw [String.empty_append, he])

theorem streamWire_inj {name role role' : String} (h : role ∈ streamRoles)
    (h' : role' ∈ streamRoles) (he : streamWire name role = streamWire name role') :
    role = role' := by
  have inj : ∀ role ∈ streamRoles, ∀ role' ∈ streamRoles,
      String.ofList (Literal.dropOne '_' role.toList) =
        String.ofList (Literal.dropOne '_' role'.toList) → role = role' := by
    decide
  exact inj role h role' h' ((String.append_right_inj _).1 he)

theorem portOf_append {m : Module} {name role : String} {q : Port}
    (h : m.portOf name role = .ok q) : ∃ stem, q.name = stem ++ role := by
  obtain ⟨mark, -, hfound⟩ := List.exists_of_findSome?_eq_some (Module.portOf_eq_ok.1 h)
  exact ⟨flatName name ++ mark, by simpa using List.find?_some hfound⟩

theorem outgoing_portOf_iff {m : Module} {name role : String} {q : Port}
    (hrole : role ∈ streamRoles) (h : m.portOf name role = .ok q) :
    Outgoing q.name ↔ role ∈ outgoingRoles := by
  obtain ⟨stem, hstem⟩ := portOf_append h
  rw [hstem]
  exact outgoing_append_iff hrole

/-- Ports with reserved names that are added later change no lookup that has found something. -/
theorem portOf_grown {m m' : Module} {ps : List Port} (hports : m'.ports = m.ports ++ ps)
    (hreserved : ∀ q ∈ ps, Reserved q.name) {name role : String} (hrole : role ∈ streamRoles)
    {q : Port} (h : m.portOf name role = .ok q) : m'.portOf name role = .ok q := by
  have hlookup (n : String) : m'.port? n = (m.port? n).or (ps.find? (·.name == n)) := by
    rw [Module.port?, hports, List.find?_append]
    rfl
  have hmarked : ∀ mark ∈ properMarks, m'.port? (flatName name ++ mark ++ role) =
      m.port? (flatName name ++ mark ++ role) := by
    intro mark hmark
    have hnone : ps.find? (·.name == flatName name ++ mark ++ role) = none := by
      refine List.find?_eq_none.2 fun q hq he => ?_
      have hname : q.name = flatName name ++ mark ++ role := by simpa using he
      exact not_reserved_marked hmark (List.mem_cons_of_mem _ hrole) (hname ▸ hreserved q hq)
    rw [hlookup, hnone, Option.or_none]
  have hproper : properMarks.findSome? (fun mark => m'.port? (flatName name ++ mark ++ role)) =
      properMarks.findSome? fun mark => m.port? (flatName name ++ mark ++ role) := by
    simp only [properMarks, List.findSome?_cons, List.findSome?_nil]
    rw [hmarked _ (by decide), hmarked _ (by decide), hmarked _ (by decide)]
  rw [Module.portOf_eq_ok] at h ⊢
  rw [show portMarks = properMarks ++ [""] from rfl, List.findSome?_append] at h ⊢
  rw [hproper]
  cases hfirst : properMarks.findSome? fun mark => m.port? (flatName name ++ mark ++ role) with
  | some x => rwa [hfirst] at h
  | none =>
    rw [hfirst] at h
    have hplain : m.port? (flatName name ++ role) = some q := by simpa using h
    simp [hlookup, hplain]

theorem portOf_congr {m m' : Module} (h : m'.ports = m.ports) {name role : String} {q : Port} :
    m'.portOf name role = .ok q ↔ m.portOf name role = .ok q := by
  rw [Module.portOf_eq_ok, Module.portOf_eq_ok]
  unfold Module.port?
  rw [h]

/-! ### The links of a stream -/

/-- The names of the ports that an external stream is connected to. -/
def Fifo.outerPorts (f : Fifo) (m : Module) : List String :=
  f.outerSide.suffixes.filterMap fun role => (m.portOf f.name role).toOption.map Port.name

theorem Fifo.mem_outerPorts {f : Fifo} {m : Module} {role : String} {q : Port}
    (hrole : role ∈ f.outerSide.suffixes) (h : m.portOf f.name role = .ok q) :
    q.name ∈ f.outerPorts m :=
  List.mem_filterMap.2 ⟨role, hrole, by rw [h]; rfl⟩

theorem portsOf_map_signal (ss : List Signal) : portsOf (ss.map .signal) = [] := by
  simp [portsOf, List.filterMap_map, Function.comp_def, Item.port?]

/-- The assignment between the wire of a stream in a role and its port `q role`. -/
def Fifo.link (f : Fifo) (q : String → Port) (role : String) : String × Expr :=
  if role ∈ outgoingRoles then ((q role).name, .ident (streamWire f.name role))
  else (streamWire f.name role, .ident (q role).name)

def Fifo.links (f : Fifo) (q : String → Port) : List (String × Expr) :=
  f.outerSide.suffixes.map (f.link q)

/-- The logic of some assignments. -/
def assignLogic (as : List (String × Expr)) : List Item :=
  as.map fun a => .logic (.assign a.1 a.2)

theorem portsOf_assignLogic (as : List (String × Expr)) : portsOf (assignLogic as) = [] := by
  simp [portsOf, assignLogic, List.filterMap_map, Function.comp_def, Item.port?]

theorem connectExternal_ok {f : Fifo} {d d' : Draft} (h : connectExternal f d = .ok () d') :
    ∃ q : String → Port,
      (∀ role ∈ f.outerSide.suffixes, d.module.portOf f.name role = .ok (q role)) ∧
      d.module.addAll (assignLogic (f.links q)) = .ok d'.module := by
  let q (role : String) : Port := (d.module.portOf f.name role).toOption.getD default
  have hq {role : String} {r : Port} (hr : d.module.portOf f.name role = .ok r) : q role = r := by
    simp only [q, hr]
    rfl
  unfold connectExternal at h
  obtain ⟨m, d₁, hm, h⟩ := bind_ok.1 h
  cases hm
  obtain ⟨data, d₁, hdata₁, h₁⟩ := bind_ok.1 h
  obtain ⟨rfl, hdata⟩ := reads_require _ _ _ _ hdata₁
  obtain ⟨flag, d₂, hflag₁, h₂⟩ := bind_ok.1 h₁
  obtain ⟨rfl, hflag⟩ := reads_require _ _ _ _ hflag₁
  obtain ⟨enable, d₃, henable₁, h₃⟩ := bind_ok.1 h₂
  obtain ⟨rfl, henable⟩ := reads_require _ _ _ _ henable₁
  obtain ⟨m', hm', rfl⟩ := add_ok h₃
  refine ⟨q, ?_, ?_⟩
  · have hports : ∀ role ∈ f.outerSide.suffixes, ∃ r, d₃.module.portOf f.name role = .ok r := by
      simp only [StreamSide.suffixes, List.mem_cons, List.not_mem_nil, or_false]
      rintro role (rfl | rfl | rfl)
      · exact ⟨data, hdata⟩
      · exact ⟨flag, hflag⟩
      · exact ⟨enable, henable⟩
    intro role hrole
    obtain ⟨r, hr⟩ := hports role hrole
    rw [hr, hq hr]
  · have hlinks : assignLogic (f.links q) = [.logic (if f.consumer.isSome then
          .assign (streamWire f.name f.outerSide.data) (.ident data.name)
        else .assign data.name (.ident (streamWire f.name f.outerSide.data))),
        .logic (.assign (streamWire f.name f.outerSide.flag) (.ident flag.name)),
        .logic (.assign enable.name (.ident (streamWire f.name f.outerSide.enable)))] := by
      rw [← hq hdata, ← hq hflag, ← hq henable]
      unfold Fifo.links Fifo.outerSide
      cases f.consumer.isSome <;> rfl
    rw [hlinks]
    exact hm'

/-- What adding an external stream adds. -/
theorem addStream_external {p : Plan} {f : Fifo} (hf : f.isExternal = true) {d d' : Draft}
    (h : p.addStream f d = .ok () d') : ∃ (q : String → Port) (width : Int),
      (∀ role ∈ f.outerSide.suffixes, d.module.portOf f.name role = .ok (q role)) ∧
      d.module.addAll ((streamWires f.name width).map .signal ++ assignLogic (f.links q)) =
        .ok d'.module := by
  unfold Plan.addStream at h
  obtain ⟨⟨⟩, d₁, hsides, h₁⟩ := bind_ok.1 h
  obtain ⟨rfl, -⟩ := f.reads_checkSides _ _ _ hsides
  obtain ⟨width, d₂, hwidth, h₂⟩ := bind_ok.1 h₁
  obtain ⟨rfl, -⟩ := p.reads_streamWidth f _ _ _ hwidth
  obtain ⟨⟨⟩, d₃, hwires, h₃⟩ := bind_ok.1 h₂
  obtain ⟨m, hm, rfl⟩ := add_ok hwires
  rw [if_pos hf] at h₃
  obtain ⟨q, hq, hlinks⟩ := connectExternal_ok h₃
  refine ⟨q, width, fun role hrole => ?_, Module.addAll_append.2 ⟨m, hm, hlinks⟩⟩
  -- the wires are no ports
  have hports : m.ports = d₂.module.ports := by
    rw [Module.addAll_eq hm, Module.ports_pushAll, portsOf_map_signal, List.append_nil]
  exact (portOf_congr hports).1 (hq role hrole)

/-- An item that drives nothing by an assignment and is no port. -/
def Item.Inner : Item → Prop
  | .port _ => False
  | .logic (.assign ..) => False
  | _ => True

theorem inner_items {items : List Item} (h : ∀ i ∈ items, i.Inner) :
    assignsIn items = [] ∧ portsOf items = [] := by
  refine ⟨List.eq_nil_iff_forall_not_mem.2 fun a ha => ?_,
    List.eq_nil_iff_forall_not_mem.2 fun q hq => ?_⟩
  · exact h _ (mem_assignsIn.1 ha)
  · exact h _ (mem_portsOf.1 hq)

theorem inner_addStream {p : Plan} {f : Fifo} (hf : f.isExternal = false) :
    (p.addStream f).Each Item.Inner := by
  unfold Plan.addStream
  refine .silent_bind f.silent_checkSides fun _ => .silent_bind (p.silent_streamWidth f) fun w => ?_
  rw [hf]
  refine .bind (.add (List.forall_mem_map.2 fun _ _ => trivial)) fun _ => ?_
  refine .bind (.add (List.forall_mem_singleton.2 trivial)) fun _ => ?_
  refine .ite (fun _ => ?_) fun _ => .pure
  exact .add (List.forall_mem_singleton.2 trivial)

/-! ### Adding the streams -/

/-- Ports in roles that lead out are not read, and only those `taken` are driven. -/
structure Sparing (level : Nat) (taken : String → Prop) (m : Module) : Prop where
  orderly : Orderly level m
  unread : ∀ a ∈ m.drivers level, ∀ x ∈ a.2.names, x ∈ portNames m → ¬ Outgoing x
  driven : ∀ a ∈ m.drivers level, a.1 ∈ portNames m → Outgoing a.1 → taken a.1

theorem Fifo.outerSide_suffixes (f : Fifo) :
    f.outerSide.suffixes.Nodup ∧ f.outerSide.suffixes ⊆ streamRoles := by
  unfold Fifo.outerSide
  cases f.consumer.isSome <;> decide

section
variable {level : Nat} {taken taken' : String → Prop} {m m' : Module} {f : Fifo} {q : String → Port}
  {width : Int}

theorem assignsIn_assignLogic (as : List (String × Expr)) : assignsIn (assignLogic as) = as := by
  simp [assignsIn, logicsOf, assignLogic, Circuit.assignsOf, List.filterMap_map, Function.comp_def,
    Item.logic?]

theorem assignsIn_streamItems (f : Fifo) (q : String → Port) (width : Int) :
    assignsIn ((streamWires f.name width).map .signal ++ assignLogic (f.links q)) = f.links q := by
  rw [assignsIn_append, assignsIn_signals, assignsIn_assignLogic, List.nil_append]

theorem wire_mem_streamItems (f : Fifo) (q : String → Port) (width : Int) {role : String}
    (hrole : role ∈ f.outerSide.suffixes) : streamWire f.name role ∈
      wiresOf ((streamWires f.name width).map .signal ++ assignLogic (f.links q)) := by
  rw [wiresOf_append]
  exact List.mem_append_left _ (streamWire_mem f.name width (f.outerSide_suffixes.2 hrole))

/-- A wire of a new stream is no port. -/
theorem wire_not_port (ht : m.Tallied)
    (hm : m.addAll ((streamWires f.name width).map .signal ++ assignLogic (f.links q)) = .ok m')
    {role : String} (hrole : role ∈ f.outerSide.suffixes) :
    streamWire f.name role ∉ portNames m := by
  intro hmem
  have hnew := (Module.nodup_of_addAll hm).2 _
    (wiresOf_subset (wire_mem_streamItems f q width hrole))
  rw [Module.declared_of_carries ht (Module.carries_of_port hmem)] at hnew
  cases hnew

/-- What a link reads. -/
theorem names_link {role x : String} (hx : x ∈ (f.link q role).2.names) :
    x = if role ∈ outgoingRoles then streamWire f.name role else (q role).name := by
  unfold Fifo.link at hx
  split at hx <;> simpa [Expr.names, *] using hx

theorem wire_ne_outerPort (ht : m.Tallied)
    (hq : ∀ role ∈ f.outerSide.suffixes, m.portOf f.name role = .ok (q role))
    (hm : m.addAll ((streamWires f.name width).map .signal ++ assignLogic (f.links q)) = .ok m')
    {role role' : String} (hrole : role ∈ f.outerSide.suffixes)
    (hrole' : role' ∈ f.outerSide.suffixes) : streamWire f.name role ≠ (q role').name :=
  fun he => wire_not_port ht hm hrole (he ▸ portOf_mem (hq role' hrole'))

/-- Different roles are different ports. -/
theorem outerPort_inj (hq : ∀ role ∈ f.outerSide.suffixes, m.portOf f.name role = .ok (q role))
    {role role' : String} (hrole : role ∈ f.outerSide.suffixes)
    (hrole' : role' ∈ f.outerSide.suffixes) (he : (q role).name = (q role').name) :
    role = role' := by
  obtain ⟨-, hroles⟩ := f.outerSide_suffixes
  by_contra hne
  obtain ⟨stem, hstem⟩ := portOf_append (hq role hrole)
  obtain ⟨stem', hstem'⟩ := portOf_append (hq role' hrole')
  rw [hstem, hstem'] at he
  exact append_role_ne (hroles hrole) (hroles hrole') hne he

theorem link_inj (ht : m.Tallied)
    (hq : ∀ role ∈ f.outerSide.suffixes, m.portOf f.name role = .ok (q role))
    (hm : m.addAll ((streamWires f.name width).map .signal ++ assignLogic (f.links q)) = .ok m')
    {role role' : String} (hrole : role ∈ f.outerSide.suffixes)
    (hrole' : role' ∈ f.outerSide.suffixes) (he : (f.link q role).1 = (f.link q role').1) :
    role = role' := by
  obtain ⟨-, hroles⟩ := f.outerSide_suffixes
  unfold Fifo.link at he
  split at he <;> split at he
  · exact outerPort_inj hq hrole hrole' he
  · exact absurd he.symm (wire_ne_outerPort ht hq hm hrole' hrole)
  · exact absurd he (wire_ne_outerPort ht hq hm hrole hrole')
  · exact streamWire_inj (hroles hrole) (hroles hrole') he

/-- No link reads what another one drives, or what it drives itself. -/
theorem link_unread (ht : m.Tallied)
    (hq : ∀ role ∈ f.outerSide.suffixes, m.portOf f.name role = .ok (q role))
    (hm : m.addAll ((streamWires f.name width).map .signal ++ assignLogic (f.links q)) = .ok m')
    {role role' : String} (hrole : role ∈ f.outerSide.suffixes)
    (hrole' : role' ∈ f.outerSide.suffixes) : (f.link q role').1 ∉ (f.link q role).2.names := by
  obtain ⟨-, hroles⟩ := f.outerSide_suffixes
  intro hread
  have hread := names_link hread
  unfold Fifo.link at hread
  split at hread <;> rename_i hout' <;> split at hread <;> rename_i hout
  · exact wire_ne_outerPort ht hq hm hrole hrole' hread.symm
  · exact hout (outerPort_inj hq hrole' hrole hread ▸ hout')
  · exact hout' (streamWire_inj (hroles hrole') (hroles hrole) hread ▸ hout)
  · exact wire_ne_outerPort ht hq hm hrole' hrole hread

/-- The links of a stream that looks up ports that nobody drives so far. -/
theorem rooted_links (h : Sparing level taken m)
    (hq : ∀ role ∈ f.outerSide.suffixes, m.portOf f.name role = .ok (q role))
    (hm : m.addAll ((streamWires f.name width).map .signal ++ assignLogic (f.links q)) = .ok m')
    (hfree : ∀ role ∈ f.outerSide.suffixes, ¬ taken (q role).name) :
    Rooted level m ((streamWires f.name width).map .signal ++ assignLogic (f.links q)) := by
  obtain ⟨hnodup, hroles⟩ := f.outerSide_suffixes
  have ht := h.orderly.tallied
  have hport {role : String} (hrole : role ∈ f.outerSide.suffixes) :
      (q role).name ∈ portNames m := portOf_mem (hq role hrole)
  refine ⟨?_, ?_, ?_⟩ <;> rw [assignsIn_streamItems]
  · rw [Fifo.links, List.map_map]
    exact hnodup.map_on fun role hrole role' hrole' he => link_inj ht hq hm hrole hrole' he
  · rintro b hb
    obtain ⟨role, hrole, rfl⟩ := List.mem_map.1 hb
    unfold Fifo.link
    split
    · rename_i hout
      have houtgoing : Outgoing (q role).name :=
        (outgoing_portOf_iff (hroles hrole) (hq role hrole)).2 hout
      refine .inr ⟨hport hrole, fun a ha => ⟨fun he => ?_, fun hread => ?_⟩⟩
      · have hdriven := h.driven a ha
        rw [he] at hdriven
        exact hfree role hrole (hdriven (hport hrole) houtgoing)
      · exact h.unread a ha _ hread (hport hrole) houtgoing
    · exact .inl (wire_mem_streamItems f q width hrole)
  · rintro b hb x hx
    obtain ⟨role, hrole, rfl⟩ := List.mem_map.1 hb
    refine ⟨?_, fun hmem => ?_⟩
    · rw [names_link hx]
      split
      · exact .inr (wiresOf_subset (wire_mem_streamItems f q width hrole))
      · exact .inl (Module.declared_of_carries ht (Module.carries_of_port (hport hrole)))
    · obtain ⟨c, hc, rfl⟩ := List.mem_map.1 hmem
      obtain ⟨role', hrole', rfl⟩ := List.mem_map.1 hc
      exact link_unread ht hq hm hrole hrole' hx

/-- The step lemma for an external stream. -/
theorem Sparing.link (h : Sparing level taken m)
    (hq : ∀ role ∈ f.outerSide.suffixes, m.portOf f.name role = .ok (q role))
    (hm : m.addAll ((streamWires f.name width).map .signal ++ assignLogic (f.links q)) = .ok m')
    (hfree : ∀ role ∈ f.outerSide.suffixes, ¬ taken (q role).name)
    (htaken : ∀ x, taken x → taken' x)
    (htaken' : ∀ role ∈ f.outerSide.suffixes, taken' (q role).name) : Sparing level taken' m' := by
  have hdrivers : m'.drivers level = m.drivers level ++ f.links q := by
    rw [Module.drivers_addAll hm, assignsIn_streamItems]
  have hports : portNames m' = portNames m := by
    rw [portNames_of_addAll hm, portNamesOf_append, portNamesOf_signals, portNamesOf,
      portsOf_assignLogic]
    simp
  refine ⟨h.orderly.append hm (rooted_links h hq hm hfree), fun a ha x hx hmem => ?_,
    fun a ha hmem hout => ?_⟩ <;> rw [hdrivers, List.mem_append] at ha <;> rw [hports] at hmem
  · rcases ha with ha | ha
    · exact h.unread a ha x hx hmem
    · obtain ⟨role, hrole, rfl⟩ := List.mem_map.1 ha
      rw [names_link hx] at hmem ⊢
      split at hmem <;> rename_i hout
      · exact absurd hmem (wire_not_port h.orderly.tallied hm hrole)
      · rw [if_neg hout, outgoing_portOf_iff (f.outerSide_suffixes.2 hrole) (hq role hrole)]
        exact hout
  · rcases ha with ha | ha
    · exact htaken _ (h.driven a ha hmem hout)
    · obtain ⟨role, hrole, rfl⟩ := List.mem_map.1 ha
      unfold Fifo.link at hmem ⊢
      split at hmem <;> rename_i hrole'
      · rw [if_pos hrole']
        exact htaken' role hrole
      · exact absurd hmem (wire_not_port h.orderly.tallied hm hrole)

/-- The step lemma for whatever drives nothing by an assignment and is no port. -/
theorem Sparing.inner (h : Sparing level taken m) {items : List Item} (hi : ∀ i ∈ items, i.Inner)
    (hm : m.addAll items = .ok m') : Sparing level taken m' := by
  obtain ⟨hassigns, hnone⟩ := inner_items hi
  have hdrivers : m'.drivers level = m.drivers level := by
    rw [Module.drivers_addAll hm, hassigns, List.append_nil]
  have hports : portNames m' = portNames m := by
    rw [portNames_of_addAll hm, portNamesOf, hnone, List.map_nil, List.append_nil]
  refine ⟨h.orderly.append hm (.of_wires hm ?_ ?_ ?_), ?_, ?_⟩
  · simp [hassigns]
  · simp [hassigns]
  · simp [hassigns]
  · rw [hdrivers, hports]
    exact h.unread
  · rw [hdrivers, hports]
    exact h.driven

end

/-- One stream: it adds no port, and drives ports that it looks up. -/
theorem sparing_addStream {p : Plan} {level : Nat} {final : Module} {f : Fifo}
    {taken : String → Prop} {d d' : Draft} (h : Sparing level taken d.module)
    (hfinal : ∀ name, ∀ role ∈ streamRoles, ∀ q,
      d.module.portOf name role = .ok q → final.portOf name role = .ok q)
    (hfree : f.isExternal = true → ∀ x ∈ f.outerPorts final, ¬ taken x)
    (hr : p.addStream f d = .ok () d') : d'.module.ports = d.module.ports ∧
      Sparing level (fun x => taken x ∨ f.isExternal = true ∧ x ∈ f.outerPorts final) d'.module := by
  cases hf : f.isExternal with
  | true =>
    obtain ⟨q, width, hq, hm⟩ := addStream_external hf hr
    have hports : ∀ role ∈ f.outerSide.suffixes, (q role).name ∈ f.outerPorts final :=
      fun role hrole => Fifo.mem_outerPorts hrole
        (hfinal f.name role (f.outerSide_suffixes.2 hrole) _ (hq role hrole))
    refine ⟨?_, h.link hq hm (fun role hrole => hfree hf _ (hports role hrole)) (fun _ => .inl)
      fun role hrole => .inr ⟨rfl, hports role hrole⟩⟩
    rw [Module.addAll_eq hm, Module.ports_pushAll, portsOf_append, portsOf_map_signal,
      portsOf_assignLogic, List.append_nil, List.append_nil]
  | false =>
    obtain ⟨items, hm, hinner⟩ := inner_addStream hf _ _ _ hr
    have hs := h.inner hinner hm
    refine ⟨?_, hs.orderly, hs.unread, fun a ha hmem hout => .inl (hs.driven a ha hmem hout)⟩
    rw [Module.addAll_eq hm, Module.ports_pushAll, (inner_items hinner).2, List.append_nil]

/-- The streams, one after the other, if they look up different ports of a module `final` that has
all the ports they find. -/
theorem orderly_addStreams {p : Plan} {level : Nat} {final : Module} {fs : List Fifo}
    {taken : String → Prop} {d d' : Draft} (h : Sparing level taken d.module)
    (hfinal : ∀ name, ∀ role ∈ streamRoles, ∀ q,
      d.module.portOf name role = .ok q → final.portOf name role = .ok q)
    (hfree : ∀ f ∈ fs, f.isExternal = true → ∀ x ∈ f.outerPorts final, ¬ taken x)
    (hapart : (fs.filter (·.isExternal)).Pairwise fun f g =>
      (f.outerPorts final).Disjoint (g.outerPorts final))
    (hr : fs.forM p.addStream d = .ok () d') : Orderly level d'.module := by
  induction fs generalizing taken d with
  | nil =>
    cases hr
    exact h.orderly
  | cons f fs ih =>
    obtain ⟨⟨⟩, d₁, hstream, hrest⟩ := bind_ok.1 hr
    obtain ⟨hports, hs⟩ := sparing_addStream h hfinal (hfree f (.head _)) hstream
    refine ih hs (fun name role hrole q hq => ?_) (fun g hg hext x hx htaken => ?_) ?_ hrest
    · exact hfinal name role hrole q ((portOf_congr hports).1 hq)
    · rcases htaken with htaken | ⟨hf, hxf⟩
      · exact hfree g (.tail _ hg) hext x hx htaken
      · rw [List.filter_cons_of_pos hf, List.pairwise_cons] at hapart
        exact hapart.1 g (List.mem_filter.2 ⟨hg, hext⟩) hxf hx
    · rw [List.filter_cons] at hapart
      split at hapart
      · exact (List.pairwise_cons.1 hapart).2
      · exact hapart

/-- The inverted reset, and the registers and pipelines of the controller. -/
def baseItems (level : Nat) : List Item :=
  resetItems ++ ((controlSignals level).map .signal ++
    ((startPipeline level).items (.ident startPort) ++
      (donePipeline level).items (.equals (.ident stateReg) state10)))

theorem assignsIn_baseItems (level : Nat) : assignsIn (baseItems level) =
    [(resetWire, .unary .complement (.ident resetPort)), ("ap_start__q0", .ident startPort),
     ("ap_done__q0", .equals (.ident stateReg) state10)] := by
  simp only [baseItems, assignsIn_append, assignsIn_signals, assignsIn_pipeline]
  rfl

theorem statusAssigns_eq (level : Nat) : statusAssigns level =
    [(idlePort, .equals (.ident stateReg) state00), (donePort, .ident (donePipeline level).last),
     (readyPort, .ident "ap_done__q0")] := rfl

theorem base_ok {p : Plan} {level : Nat} {name : String} {d : Draft}
    (h : (do p.declareInterface; declareControl level : Build Unit)
      { module := .new name } = .ok () d) :
    ∃ iface, logicsOf iface = [] ∧ (∀ n ∈ handshakePorts, n ∈ portNamesOf iface) ∧
      (Module.new name).addAll (iface ++ baseItems level) = .ok d.module := by
  have hcontrol : (declareControl level).Adds fun _ xs _ =>
      xs = (controlSignals level).map .signal ++
        ((startPipeline level).items (.ident startPort) ++
          (donePipeline level).items (.equals (.ident stateReg) state10)) := by
    refine (Adds.bind (adds_add _) fun _ => Adds.bind (adds_pipeline _ _) fun _ =>
      adds_pipeline _ _).mono ?_
    rintro m _ _ ⟨_, _, _, _, rfl, -, rfl, _, _, _, _, rfl, -, rfl, rfl⟩
    rfl
  obtain ⟨items, hm, xs, ys, _, m', rfl, hxs, ⟨iface, rfl, hiface, hports⟩, rfl⟩ :=
    Adds.bind p.adds_declareInterface (fun _ => hcontrol) _ _ _ h
  refine ⟨iface, hiface, fun n hn => ?_, ?_⟩
  · obtain ⟨q, hq, rfl⟩ := hports n hn
    exact List.mem_map_of_mem hq
  · rw [List.append_assoc] at hm
    exact hm

/-- What the control reads: two ports of the handshake, and signals of its own. -/
theorem reads_base (level : Nat) :
    ∀ a ∈ statusAssigns level ++ assignsIn (baseItems level), ∀ x ∈ a.2.names,
      x ∈ [resetPort, startPort] ∨ ∃ s, .signal s ∈ baseItems level ∧ s.name = x := by
  have hstage (t : Pipeline) (ht : t = startPipeline level ∨ t = donePipeline level) :
      ∀ x ∈ t.stageNames, ∃ s, .signal s ∈ baseItems level ∧ s.name = x := by
    intro x hx
    obtain ⟨s, hs, rfl⟩ := List.mem_map.1 hx
    refine ⟨s, ?_, rfl⟩
    rcases ht with rfl | rfl <;> simp [baseItems, Pipeline.items, hs]
  have hstate : ∃ s, .signal s ∈ baseItems level ∧ s.name = stateReg :=
    ⟨⟨stateReg, .reg, BitRange.bits 2, []⟩, by simp [baseItems, controlSignals], rfl⟩
  have hlast := hstage _ (.inr rfl) _ (donePipeline level).last_mem
  have hfirst := hstage _ (.inr rfl) _ (donePipeline level).first_mem
  rw [statusAssigns_eq, assignsIn_baseItems]
  simp only [List.cons_append, List.nil_append, List.mem_cons, List.not_mem_nil, or_false]
  rintro a (rfl | rfl | rfl | rfl | rfl | rfl) x hx <;>
    simp only [Expr.names, stateCode, List.append_nil, List.mem_singleton] at hx <;> subst hx
  · exact .inr hstate
  · exact .inr hlast
  · exact .inr hfirst
  · exact .inl (.inl rfl)
  · exact .inl (.inr rfl)
  · exact .inr hstate

theorem first_mem_baseItems {level : Nat} {t : Pipeline}
    (ht : t = startPipeline level ∨ t = donePipeline level) :
    t.first ∈ wiresOf (baseItems level) := by
  simp only [baseItems, wiresOf_append, List.mem_append]
  rcases ht with rfl | rfl
  · exact .inr (.inr (.inl (first_mem_wiresOf_items _ _)))
  · exact .inr (.inr (.inr (first_mem_wiresOf_items _ _)))

theorem wires_baseItems (level : Nat) :
    ∀ b ∈ assignsIn (baseItems level), b.1 ∈ wiresOf (baseItems level) := by
  rw [assignsIn_baseItems]
  simp only [List.mem_cons, List.not_mem_nil, or_false]
  rintro b (rfl | rfl | rfl)
  · exact mem_wiresOf.2 ⟨⟨resetWire, .wire, none, []⟩, by simp [baseItems, resetItems], by simp, rfl⟩
  · exact first_mem_baseItems (.inl rfl)
  · exact first_mem_baseItems (.inr rfl)

/-- A module of an interface and the base items. -/
structure OnBase (level : Nat) (m : Module) : Prop where
  drivers : m.drivers level = statusAssigns level ++ assignsIn (baseItems level)
  handshake : ∀ n ∈ handshakePorts, n ∈ portNames m
  wires : ∀ n ∈ wiresOf (baseItems level), m.carries n = true
  declared : ∀ n ∈ namesOf (baseItems level), m.declared n = true
  inner : ∀ s, .signal s ∈ baseItems level → s.name ∉ portNames m
  tallied : m.Tallied

theorem onBase_of_ok {p : Plan} {level : Nat} {name : String} {d : Draft}
    (h : (do p.declareInterface; declareControl level : Build Unit)
      { module := .new name } = .ok () d) : OnBase level d.module := by
  obtain ⟨iface, hiface, hshake, hm⟩ := base_ok h
  have hports : portNames d.module = portNamesOf (iface ++ baseItems level) :=
    portNames_of_addAll hm
  refine ⟨?_, fun n hn => ?_, fun n hn => ?_, fun n hn => ?_, fun s hs hmem => ?_,
    Module.addAll_eq hm ▸ (Module.tallied_new name).pushAll _⟩
  · rw [Module.drivers_addAll hm, assignsIn_append, assignsIn, hiface]
    rfl
  · rw [hports, portNamesOf_append]
    exact List.mem_append_left _ (hshake n hn)
  · refine Module.carries_of_wire hm ?_
    rw [wiresOf_append]
    exact List.mem_append_right _ hn
  · refine (Module.declared_addAll hm).2 (.inr ?_)
    rw [namesOf_append]
    exact List.mem_append_right _ hn
  · rw [hports] at hmem
    obtain ⟨q, hq, he⟩ := mem_portNamesOf.1 hmem
    exact signal_ne_port (Module.nodup_of_addAll hm).1 (List.mem_append_right _ hs) hq he.symm

namespace OnBase

variable {level : Nat} {m : Module}

theorem status_mem : ∀ a ∈ statusAssigns level, a.1 ∈ handshakePorts := driven_controlLogic level []

theorem inputs_subset : [resetPort, startPort] ⊆ handshakePorts := by decide

theorem declared_handshake (h : OnBase level m) {n : String} (hn : n ∈ handshakePorts) :
    m.declared n = true :=
  Module.declared_of_carries h.tallied (Module.carries_of_port (h.handshake n hn))

/-- The base items read no status port, and the status ports read none either. -/
theorem acyclic (h : OnBase level m) : NoCycle (m.drivers level) := by
  have hbase : NoCycle ([] ++ assignsIn (baseItems level)) := by
    refine NoCycle.nil.append ?_
    rw [assignsIn_baseItems]
    decide
  rw [h.drivers]
  refine (hbase.append fun a ha x hx hmem => ?_).of_perm List.perm_append_comm
  obtain ⟨b, hb, rfl⟩ := List.mem_map.1 hmem
  rcases reads_base level a (List.mem_append.2 (List.mem_append.1 ha).symm) _ hx with
    hx | ⟨s, hs, he⟩
  · have hapart : ∀ n ∈ (statusAssigns level).map Prod.fst, n ∉ [resetPort, startPort] := by
      rw [statusAssigns_eq]
      simp only [List.map_cons, List.map_nil]
      decide
    exact hapart _ (List.mem_map_of_mem hb) hx
  · exact h.inner s hs (he ▸ h.handshake _ (status_mem b hb))

theorem orderly (h : OnBase level m) : Orderly level m := by
  refine ⟨?_, fun a ha => ?_, fun a ha x hx => ?_, h.acyclic, ?_, h.tallied⟩
  · rw [h.drivers, statusAssigns_eq, assignsIn_baseItems]
    simp only [List.cons_append, List.nil_append, List.map_cons, List.map_nil]
    decide
  · rw [h.drivers] at ha
    rcases List.mem_append.1 ha with ha | ha
    · exact Module.carries_of_port (h.handshake _ (status_mem a ha))
    · exact h.wires _ (wires_baseItems level a ha)
  · rw [h.drivers] at ha
    rcases reads_base level a ha x hx with hx | ⟨s, hs, rfl⟩
    · exact h.declared_handshake (inputs_subset hx)
    · exact h.declared _ (name_mem_of_signal hs)
  · have hfirst {t : Pipeline} (ht : t = startPipeline level ∨ t = donePipeline level) :
        m.declared t.first = true := h.declared _ (wiresOf_subset (first_mem_baseItems ht))
    have hreset : m.declared resetPort = true := h.declared_handshake (by decide)
    simp only [controlInputs, List.forall_mem_cons]
    exact ⟨hreset, hfirst (.inl rfl), hfirst (.inr rfl), List.forall_mem_nil _⟩

/-- No port that leads out is read or driven. -/
theorem sparing (h : OnBase level m) : Sparing level (fun _ => False) m := by
  refine ⟨h.orderly, fun a ha x hx hmem => ?_, fun a ha hmem hout => ?_⟩ <;> rw [h.drivers] at ha
  · rcases reads_base level a ha x hx with hx | ⟨s, hs, rfl⟩
    · exact not_outgoing_handshake x (inputs_subset hx)
    · exact absurd hmem (h.inner s hs)
  · rcases List.mem_append.1 ha with ha | ha
    · exact not_outgoing_handshake _ (status_mem a ha) hout
    · obtain ⟨s, hs, -, he⟩ := mem_wiresOf.1 (wires_baseItems level a ha)
      exact h.inner s hs (he ▸ hmem)

end OnBase

end TaskLoom
