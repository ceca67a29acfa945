import TaskLoom.Proofs.Composite.Lookup
import TaskLoom.Proofs.Composite.Offsets

/-!
# The names of channel ports

A channel of a memory is found by the two ends of the names of its ports (`isChannelPort`).  A
composite that passes the channel on has names of its own for these ports (`channelWire`), and they
are found in the same way.

No other name of a composite has both ends: the names of the handshake and of buses end in another
way, and what begins with a channel of `x` comes from a stem that begins with `x_`.  So a stem that
does so only as the offset `x_offset` stays apart (`Apart`), in each of its roles and with each of
its own channels.
-/

namespace TaskLoom

/-- The name has both ends of a port of a channel. -/
def isChannelPort (arg channel name : String) : Bool :=
  Text.beginsWith name (arg ++ "_" ++ channel) &&
    (channelSide channel).suffixes.any (Text.endsWith name)

/-- The module has at least one port of the channel. -/
def Module.Exposes (m : Module) (arg channel : String) : Prop :=
  ∃ r ∈ m.ports, isChannelPort arg channel r.name = true

instance (m : Module) (arg channel : String) : Decidable (m.Exposes arg channel) :=
  inferInstanceAs (Decidable (∃ r ∈ m.ports, _))

/-- The stem begins with `arg_` only if it is the name of the offset. -/
def Apart (arg stem : String) : Prop :=
  Text.beginsWith stem (arg ++ "_") = true → stem = arg ++ "_offset"

instance (arg stem : String) : Decidable (Apart arg stem) := inferInstanceAs (Decidable (_ → _))

variable {arg channel stem role name : String}

theorem beginsWith_iff {s head : String} :
    Text.beginsWith s head = true ↔ head.toList <+: s.toList := List.isPrefixOf_iff_prefix

theorem endsWith_iff {s tail : String} :
    Text.endsWith s tail = true ↔ tail.toList <:+ s.toList := List.isSuffixOf_iff_suffix

theorem prefix_append (s t : String) : s.toList <+: (s ++ t).toList :=
  beginsWith_iff.1 (beginsWith_append s t)

theorem suffix_append (s t : String) : t.toList <:+ (s ++ t).toList :=
  endsWith_iff.1 (endsWith_append s t)

theorem suffixes_channelSide (channel : String) :
    (channelSide channel).suffixes ⊆ streamRoles := by
  unfold channelSide
  split
  · exact List.subset_append_left _ _
  · exact List.subset_append_right _ _

theorem ends_of_isChannelPort (h : isChannelPort arg channel name = true) :
    (arg ++ "_" ++ channel).toList <+: name.toList ∧
      ∃ role ∈ streamRoles, role.toList <:+ name.toList := by
  rw [isChannelPort, Bool.and_eq_true, beginsWith_iff, List.any_eq_true] at h
  obtain ⟨hhead, role, hrole, hends⟩ := h
  exact ⟨hhead, role, suffixes_channelSide _ hrole, endsWith_iff.1 hends⟩

theorem not_channelPort_of_ending (ending : String) (hends : ending.toList <:+ name.toList)
    (h : ∀ role ∈ streamRoles, ending.toList.isSuffixOf role.toList = false ∧
      role.toList.isSuffixOf ending.toList = false) : isChannelPort arg channel name = false := by
  rw [Bool.eq_false_iff]
  intro hname
  obtain ⟨-, role, hrole, hrole'⟩ := ends_of_isChannelPort hname
  obtain ⟨hne, hne'⟩ := h role hrole
  -- of two ends of one text, one ends the other
  rcases List.suffix_or_suffix_of_suffix hends hrole' with hs | hs
  · rw [← List.isSuffixOf_iff_suffix, hne] at hs
    cases hs
  · rw [← List.isSuffixOf_iff_suffix, hne'] at hs
    cases hs

theorem busEndings_apart : ∀ x ∈ busPorts, ∀ role ∈ streamRoles,
    ("_" ++ x.1 ++ x.2.name).toList.isSuffixOf role.toList = false ∧
      role.toList.isSuffixOf ("_" ++ x.1 ++ x.2.name).toList = false := by
  decide +kernel

theorem not_channelPort_busPort (memory : String) {x : String × BusPort} (hx : x ∈ busPorts) :
    isChannelPort arg channel (busPort memory x.1 x.2.name) = false := by
  refine not_channelPort_of_ending ("_" ++ x.1 ++ x.2.name) ?_ (busEndings_apart x hx)
  have hname : busPort memory x.1 x.2.name = "m_axi_" ++ memory ++ ("_" ++ x.1 ++ x.2.name) := by
    simp [busPort, String.append_assoc]
  rw [hname]
  exact suffix_append _ _

theorem not_channelPort_handshake (h : name ∈ handshakePorts) :
    isChannelPort arg channel name = false := by
  have hends : ∀ n ∈ handshakePorts, ∀ role ∈ streamRoles,
      n.toList.isSuffixOf role.toList = false ∧ role.toList.isSuffixOf n.toList = false := by
    decide
  exact not_channelPort_of_ending name (List.suffix_refl _) (hends name h)

/-- What stands behind the name of a memory in a port of a channel that is passed on. -/
def channelTail (channel role : String) : String :=
  "_" ++ channel ++ "__" ++ String.ofList (Literal.dropOne '_' role.toList)

def channelTails : List String :=
  channelNames.flatMap fun ch => streamRoles.map (channelTail ch)

theorem mem_channelTails (hch : channel ∈ channelNames) (hrole : role ∈ streamRoles) :
    channelTail channel role ∈ channelTails :=
  List.mem_flatMap.2 ⟨channel, hch, List.mem_map_of_mem hrole⟩

/-- No channel has a name that another one begins with. -/
theorem channel_eq_of_append {c c' : String} {cs cs' : List Char} (hc : c ∈ channelNames)
    (hc' : c' ∈ channelNames) (h : c.toList ++ cs = c'.toList ++ cs') : c = c' := by
  have hapart : ∀ d ∈ channelNames, ∀ d' ∈ channelNames,
      d.toList.isPrefixOf d'.toList = true → d = d' := by
    decide
  rcases List.prefix_or_prefix_of_prefix (List.prefix_append c.toList cs)
    (h ▸ List.prefix_append c'.toList cs') with hp | hp
  · exact hapart c hc c' hc' (List.isPrefixOf_iff_prefix.2 hp)
  · exact (hapart c' hc' c hc (List.isPrefixOf_iff_prefix.2 hp)).symm

/-- No channel begins like the ending of an offset. -/
theorem not_prefix_offset (tail : String) (hch : channel ∈ channelNames) :
    ¬ (arg ++ "_" ++ channel).toList <+: (arg ++ "_offset" ++ tail).toList := by
  have hsecond : ∀ ch ∈ channelNames, ("_" ++ ch).toList[1]? = some 'r' ∨
      ("_" ++ ch).toList[1]? = some 'w' := by decide
  rw [String.append_assoc, String.append_assoc, String.toList_append,
    String.toList_append (s := arg), List.prefix_append_right_inj]
  rintro ⟨t, ht⟩
  have hoffset : (("_" ++ channel).toList ++ t)[1]? = some 'o' := by
    rw [ht, String.toList_append (s := "_offset")]
    rfl
  rcases hsecond channel hch with h | h
  all_goals
    rw [List.getElem?_append_left (List.getElem?_eq_some_iff.1 h).1, h] at hoffset
    cases hoffset

/-- What a stem becomes in a role of an interface is no port of a channel. -/
theorem Apart.not_channelPort (h : Apart arg stem) (hch : channel ∈ channelNames)
    (hrole : role ∈ "" :: streamRoles) : isChannelPort arg channel (stem ++ role) = false := by
  rw [Bool.eq_false_iff]
  intro hname
  have hhead := (ends_of_isChannelPort hname).1
  -- a role is too short to make up for the name of a channel
  have harg := (prefix_append (arg ++ "_") channel).trans hhead
  have hbegins : Text.beginsWith stem (arg ++ "_") = true := by
    have hlengths : ∀ ch ∈ channelNames, ∀ r ∈ "" :: streamRoles, r.length < ch.length := by decide
    have hlong := hlengths channel hch role hrole
    have hle := hhead.length_le
    simp only [String.length_toList, String.length_append] at hle
    refine beginsWith_iff.2 (List.prefix_of_prefix_length_le harg (prefix_append _ _) ?_)
    simp only [String.length_toList, String.length_append]
    omega
  rw [h hbegins] at hhead
  exact not_prefix_offset role hch hhead

theorem flatName_of_getLast {name : String} (h : name.toList.getLast? ≠ some ']') :
    flatName name = name := by
  unfold flatName
  split
  · rename_i base c rest hspan
    have hname : name.toList = base ++ c :: rest := by
      rw [List.span_eq_takeWhile_dropWhile, Prod.mk.injEq] at hspan
      rw [← hspan.1, ← hspan.2, List.takeWhile_append_dropWhile]
    refine if_neg fun hindex => h ?_
    simp only [Bool.and_eq_true, beq_iff_eq] at hindex
    rw [hname, List.getLast?_append, List.getLast?_cons, hindex.1.1.2]
    rfl
  · rfl

theorem channelWire_eq (arg role : String) (hch : channel ∈ channelNames) :
    channelWire arg channel role = arg ++ channelTail channel role := by
  have hflat : flatName (arg ++ "_" ++ channel) = arg ++ "_" ++ channel := by
    have hlast : ∀ ch ∈ channelNames, ("_" ++ ch).toList.getLast? = some 'r' ∨
        ("_" ++ ch).toList.getLast? = some 'a' := by decide
    refine flatName_of_getLast ?_
    rw [String.append_assoc, String.toList_append, List.getLast?_append]
    rcases hlast channel hch with h | h <;> rw [h] <;> simp
  rw [channelWire, streamWire, hflat, channelTail]
  simp [String.append_assoc]

/-- The ports of a channel that is passed on are found by both ends of their names. -/
theorem isChannelPort_channelWire (arg : String) (hch : channel ∈ channelNames)
    (hrole : role ∈ (channelSide channel).suffixes) :
    isChannelPort arg channel (channelWire arg channel role) = true := by
  have hends : ∀ r ∈ streamRoles, r.toList.isSuffixOf
      ("__" ++ String.ofList (Literal.dropOne '_' r.toList)).toList = true := by decide
  have hname : channelWire arg channel role =
      arg ++ "_" ++ channel ++ ("__" ++ String.ofList (Literal.dropOne '_' role.toList)) := by
    simp [channelWire_eq _ _ hch, channelTail, String.append_assoc]
  rw [isChannelPort, Bool.and_eq_true, beginsWith_iff, List.any_eq_true, hname]
  refine ⟨prefix_append _ _, role, hrole, endsWith_iff.2 ?_⟩
  have hrole' := hends role (suffixes_channelSide channel hrole)
  exact (List.isSuffixOf_iff_suffix.1 hrole').trans (suffix_append _ _)

/-- They are not found for another channel. -/
theorem not_channelPort_channelWire {c : String} (hch : channel ∈ channelNames)
    (hc : c ∈ channelNames) (hne : c ≠ channel) :
    isChannelPort arg channel (channelWire arg c role) = false := by
  rw [Bool.eq_false_iff]
  intro hname
  have hhead := (ends_of_isChannelPort hname).1
  rw [channelWire_eq _ _ hc, String.append_assoc, String.toList_append,
    String.toList_append (s := arg), List.prefix_append_right_inj, channelTail,
    String.append_assoc, String.append_assoc, String.toList_append, String.toList_append (s := "_"),
    List.prefix_append_right_inj, String.toList_append] at hhead
  obtain ⟨t, ht⟩ := hhead
  exact hne (channel_eq_of_append hch hc ht).symm

/-- They are not found for another memory. -/
theorem Apart.not_channelPort_channelWire {memory c : String} (h : Apart arg memory)
    (hne : memory ≠ arg) (hch : channel ∈ channelNames) (hc : c ∈ channelNames)
    (hrole : role ∈ streamRoles) :
    isChannelPort arg channel (channelWire memory c role) = false := by
  have hinner : ∀ ch ∈ channelNames, ∀ t ∈ channelTails,
      ¬ ("_" ++ ch).toList <:+: t.toList.tail := by
    decide +kernel
  rw [Bool.eq_false_iff]
  intro hname
  have hhead := (ends_of_isChannelPort hname).1
  have htail := mem_channelTails hc hrole
  rw [channelWire_eq _ _ hc] at hhead
  have harg := (prefix_append (arg ++ "_") channel).trans hhead
  have hmemory := prefix_append memory (channelTail c role)
  by_cases hlong : arg.length < memory.length
  · -- the other memory begins with `arg_`
    have hbegins : (arg ++ "_").toList <+: memory.toList := by
      refine List.prefix_of_prefix_length_le harg hmemory ?_
      simp only [String.length_toList, String.length_append]
      exact hlong
    rw [h (beginsWith_iff.2 hbegins)] at hhead
    exact not_prefix_offset _ hch hhead
  · -- the other memory is a beginning of `arg`, so the channel stands inside of the tail
    have hshort : memory.toList <+: arg.toList := by
      refine List.prefix_of_prefix_length_le hmemory ((prefix_append arg "_").trans harg) ?_
      simp only [String.length_toList]
      omega
    obtain ⟨rest, hrest⟩ := hshort
    rw [String.append_assoc, String.toList_append, ← hrest, String.toList_append (s := memory),
      List.append_assoc, List.prefix_append_right_inj] at hhead
    cases rest with
    | nil => exact hne (String.toList_inj.1 (by simpa using hrest))
    | cons x rest =>
      refine hinner channel hch _ htail ?_
      obtain ⟨t, ht⟩ := hhead
      exact ⟨rest, t, by rw [← ht, List.cons_append, List.cons_append, List.tail_cons]⟩

end TaskLoom
