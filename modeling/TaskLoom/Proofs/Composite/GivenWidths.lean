import TaskLoom.Proofs.Composite.Layout
import TaskLoom.Proofs.Hdl.Literals
import TaskLoom.Proofs.Hdl.Ranges

/-!
# The widths of streams, scalars and memories

A composite takes its widths from a description, from constants and from the ports of its children.
The first two are positive where they are used, so a width of zero or less comes from a port with a
range that is too long (`SomeOverlong`).
-/

namespace TaskLoom

open Build

/-- One of the ports has a range of more bits than can be counted. -/
def SomeOverlong (ports : List Port) : Prop := ∃ q ∈ ports, BitRange.Overlong q.range

theorem SomeOverlong.of_width {ports : List Port} {q : Port} (hq : q ∈ ports) {w : Int}
    (h : BitRange.width q.range = .ok w) : 0 < w ∨ SomeOverlong ports :=
  (BitRange.pos_or_overlong h).imp_right fun hlong => ⟨q, hq, hlong⟩

theorem Placement.reads_portWidth_pos (c : Placement) (port suffix : String) :
    (c.portWidth port suffix).Reads fun w => 0 < w ∨ SomeOverlong c.module.ports := by
  refine (reads_require _).bind fun q hq => ?_
  unfold Build.widthOf
  split
  · rename_i w hw
    exact .pure (SomeOverlong.of_width (mem_of_portOf hq) hw)
  · exact .throw

namespace Plan

variable {p : Plan} {c : Placement} {a : Arg}

theorem reads_streamWidth_pos (f : Fifo) : (p.streamWidth f).Reads fun w =>
    0 < w ∨ ∃ t m, p.parts.module? t = some m ∧ SomeOverlong m.ports := by
  unfold streamWidth
  simp only
  split
  · exact .throw
  · rename_i inst port _
    split
    · exact .throw
    · rename_i m hm
      intro d w d' hr
      obtain ⟨rfl, hw⟩ := Placement.reads_portWidth_pos ⟨inst, m⟩ _ _ d w d' hr
      exact ⟨rfl, hw.imp_right fun hlong => ⟨_, m, hm, hlong⟩⟩

theorem declared_width_pos {q : TaskPort}
    (h : (p.task.port? a.name).filter (0 < ·.width) = some q) : 0 < q.width := by
  obtain ⟨-, hq⟩ := Option.filter_eq_some_iff.1 h
  simpa using hq

theorem pos_of_channelWidth {m : Module} {port : String} {channels : List String} {w : Int}
    (h : channelWidth? m port channels = some w) : 0 < w ∨ SomeOverlong m.ports := by
  obtain ⟨ch, -, hch⟩ := List.exists_of_findSome?_eq_some h
  obtain ⟨q, hq, hw⟩ := Option.bind_eq_some_iff.1 hch
  exact SomeOverlong.of_width (List.mem_of_find?_eq_some hq) (Source.toOption_eq_some.1 hw)

theorem reads_dataWidth_pos : (p.dataWidth c a).Reads fun w =>
    0 < w ∨ SomeOverlong c.module.ports := by
  unfold dataWidth
  split
  · rename_i q hq
    exact .pure (.inl (declared_width_pos hq))
  · refine .ite (fun _ => ?_) fun _ => c.reads_portWidth_pos _ _
    split
    · rename_i w hw
      exact .pure (pos_of_channelWidth hw)
    · exact .throw

theorem scalarWidth_pos {signal : String} {d d' : Draft} {w : Int}
    (h : p.scalarWidth c a signal d = .ok w d') :
    0 < w ∨ SomeOverlong d.module.ports ∨ SomeOverlong c.module.ports := by
  obtain ⟨m, d₁, hm, h⟩ := bind_ok.1 h
  cases hm
  cases hdeclared : (p.task.port? a.name).filter (0 < ·.width) with
  | some q =>
    rw [hdeclared] at h
    cases h
    exact .inl (declared_width_pos hdeclared)
  | none =>
    rw [hdeclared] at h
    simp only at h
    cases hport : (d.module.port? signal).bind fun q => (BitRange.width q.range).toOption with
    | some w' =>
      rw [hport] at h
      cases h
      obtain ⟨q, hq, hw⟩ := Option.bind_eq_some_iff.1 hport
      have hmem : q ∈ d.module.ports := List.mem_of_find?_eq_some hq
      exact (SomeOverlong.of_width hmem (Source.toOption_eq_some.1 hw)).imp_right .inl
    | none =>
      rw [hport] at h
      exact (c.reads_portWidth_pos _ _ _ _ _ h).2.imp_right .inr

/-- A delayed scalar is as wide as a constant, which has at most 64 bits, as its description or as a
port. -/
theorem argSource_pos (hm : a.category.isMmap = false) {d d' : Draft} {e : Expr} {w : Int}
    (h : p.argSource c a d = .ok (e, w) d') :
    0 < w ∨ SomeOverlong d.module.ports ∨ SomeOverlong c.module.ports := by
  unfold argSource at h
  cases hliteral : Literal.sized? a.name with
  | some s =>
    rw [hliteral] at h
    cases h
    obtain ⟨before, marks, letter, digits, base, n, hparts⟩ := Literal.sized_parts hliteral
    exact .inl hparts.positive
  | none =>
    rw [hliteral] at h
    obtain ⟨m, d₁, hmod, h⟩ := bind_ok.1 h
    cases hmod
    cases hsignal : parentSignal? d.module a with
    | none =>
      rw [hsignal] at h
      cases h
    | some signal =>
      rw [hsignal] at h
      simp only [hm, Bool.false_eq_true, if_false] at h
      obtain ⟨w', d₁, hw, h⟩ := bind_ok.1 h
      cases h
      exact scalarWidth_pos hw

end Plan

/-- A range between two integers is as wide as it has bits if these are fewer than `2 ^ 63`, and
else has a width of zero or less; any other range has no width, and what is written for a number of
bits is read back as that number.  Every width that a composite takes for a port, a stream, a scalar
or a memory is positive, unless it comes from a port whose range has too many bits. -/
theorem range_widths (r : BitRange) (p : Plan) (c : Placement) :
    (∀ a b, r.Bounded a b → ∃ w, BitRange.width (some r) = .ok w ∧
      (w = |a - b| + 1 ↔ |a - b| + 1 < signedBound) ∧ (0 < w ↔ |a - b| + 1 < signedBound) ∧
      (signedBound ≤ |a - b| + 1 → w = |a - b| + 1 - wordCount)) ∧
    ((∀ a b, ¬ r.Bounded a b) → BitRange.width (some r) = .error ⟨r⟩) ∧
    (∀ w : Int, 1 ≤ w → w < signedBound →
      BitRange.width (BitRange.bits w) = .ok w ∧
      BitRange.width (some (BitRange.vector w)) = .ok w) ∧
    (∀ port suffix d d' w, c.portWidth port suffix d = .ok w d' →
      0 < w ∨ SomeOverlong c.module.ports) ∧
    (∀ f d d' w, p.streamWidth f d = .ok w d' →
      0 < w ∨ ∃ t m, p.parts.module? t = some m ∧ SomeOverlong m.ports) ∧
    (∀ a d d' e w, a.category.isMmap = false → p.argSource c a d = .ok (e, w) d' →
      0 < w ∨ SomeOverlong d.module.ports ∨ SomeOverlong c.module.ports) ∧
    ∀ a d d' w, p.dataWidth c a d = .ok w d' → 0 < w ∨ SomeOverlong c.module.ports := by
  refine ⟨fun a b hr => ?bounded, BitRange.width_of_unbounded,
    fun w hpos hw => ⟨BitRange.width_bits hpos hw, BitRange.width_vector hpos hw⟩,
    fun port suffix d d' w h => (c.reads_portWidth_pos port suffix d w d' h).2,
    fun f d d' w h => (p.reads_streamWidth_pos f d w d' h).2,
    fun a d d' e w hm h => p.argSource_pos hm h,
    fun a d d' w h => (p.reads_dataWidth_pos d w d' h).2⟩
  obtain ⟨hpos, hle⟩ := BitRange.bits_between_le hr
  obtain ⟨hkept, hwrapped⟩ := BitRange.wrap64_count hpos hle
  refine ⟨_, BitRange.width_of_bounded hr, ?_⟩
  by_cases hlong : |a - b| + 1 < (signedBound : Int)
  · rw [hkept hlong]
    omega
  · obtain ⟨hwrap, hnonpos⟩ := hwrapped (by omega)
    omega

/-- The range of a port with bits up to the largest integer, one more than can be counted. -/
def longPort : Port := ⟨"data_din", .output, some ⟨"9223372036854775807", "0"⟩⟩

theorem longPort_bounded :
    (BitRange.mk "9223372036854775807" "0").Bounded 9223372036854775807 0 := by
  obtain ⟨hmsb, hmsb'⟩ := Numeral.int?_eq_some_iff.1 (show
    Numeral.int? (Text.trim "9223372036854775807") = some 9223372036854775807 by decide)
  obtain ⟨hlsb, hlsb'⟩ := Numeral.int?_eq_some_iff.1 (show
    Numeral.int? (Text.trim "0") = some 0 by decide)
  exact ⟨hmsb, hlsb, hmsb', hlsb'⟩

/-- A stream written by an instance with that port. -/
def longStream : Fifo := ⟨"data", 2, some ⟨"A", 0⟩, none⟩

def longLeaf : Task := { name := "A", level := .leaf }

def longInstance : Instance := ⟨longLeaf, 0, 0, [⟨"data", .ostream, "data"⟩]⟩

def longTask : Task :=
  { name := "Top", level := .composite, ports := [⟨"memory", .mmap, "int*", 32⟩]
    childTable := [⟨"A", [⟨0, longInstance.args⟩]⟩], fifoTable := [longStream] }

def longPlacement : Placement := ⟨longInstance, { name := "A", ports := [longPort] }⟩

def longPlan : Plan :=
  { options := {}, program := ⟨"Top", [longTask, longLeaf]⟩
    parts := { modules := [("A", longPlacement.module)] }, task := longTask
    children := [longPlacement] }

def longDraft : Draft := { module := .new "Top" }

/-- The width of the stream wraps around; the constant and the declared memory have their own. -/
theorem range_widths_long :
    (∃ w, BitRange.width longPort.range = .ok w ∧ w ≤ 0) ∧
    BitRange.width (some ⟨"C_M_AXI_DATA_WIDTH - 1", "0"⟩) =
      .error ⟨⟨"C_M_AXI_DATA_WIDTH - 1", "0"⟩⟩ ∧
    BitRange.width (BitRange.bits 64) = .ok 64 ∧
    longPlacement.portWidth "data" "_din" longDraft = .ok (-9223372036854775808) longDraft ∧
    longPlan.streamWidth longStream longDraft = .ok (-9223372036854775808) longDraft ∧
    (∃ t m, longPlan.parts.module? t = some m ∧ SomeOverlong m.ports) ∧
    SomeOverlong longPlacement.module.ports ∧
    longPlan.argSource longPlacement ⟨"8'd5", .scalar, "n"⟩ longDraft =
      .ok (.literal "8'd5", 8) longDraft ∧
    ((0 : Int) < 8 ∨ SomeOverlong longDraft.module.ports ∨
      SomeOverlong longPlacement.module.ports) ∧
    longPlan.dataWidth longPlacement ⟨"memory", .mmap, "memory"⟩ longDraft = .ok 32 longDraft ∧
    ((0 : Int) < 32 ∨ SomeOverlong longPlacement.module.ports) := by
  obtain ⟨hbounded, -, hwritten, hport, hstream, hscalar, hdata⟩ :=
    range_widths ⟨"9223372036854775807", "0"⟩ longPlan longPlacement
  obtain ⟨-, hunbounded, -⟩ :=
    range_widths ⟨"C_M_AXI_DATA_WIDTH - 1", "0"⟩ longPlan longPlacement
  have hnegative : ¬ (0 : Int) < -9223372036854775808 := by decide
  have hp : longPlacement.portWidth "data" "_din" longDraft =
    .ok (-9223372036854775808) longDraft := rfl
  have hf : longPlan.streamWidth longStream longDraft = .ok (-9223372036854775808) longDraft := rfl
  have ha : longPlan.argSource longPlacement ⟨"8'd5", .scalar, "n"⟩ longDraft =
    .ok (.literal "8'd5", 8) longDraft := rfl
  have hm : longPlan.dataWidth longPlacement ⟨"memory", .mmap, "memory"⟩ longDraft =
    .ok 32 longDraft := rfl
  have hlong := (hport _ _ _ _ _ hp).resolve_left hnegative
  refine ⟨?wrapped, hunbounded ?parameter, (hwritten 64 (by decide) (by decide)).1, hp, hf,
    (hstream _ _ _ _ hf).resolve_left hnegative, hlong, ha, hscalar _ _ _ _ _ rfl ha, hm,
    hdata _ _ _ _ hm⟩
  case wrapped =>
    obtain ⟨w, hw, -, hpos, -⟩ := hbounded _ _ longPort_bounded
    refine ⟨w, hw, ?_⟩
    have hcount : |(9223372036854775807 : Int) - 0| + 1 = signedBound := by decide
    rw [hcount] at hpos
    omega
  case parameter =>
    intro a b h
    have hnone : Numeral.int? (Text.trim "C_M_AXI_DATA_WIDTH - 1") = none := by decide
    rw [Numeral.int?_eq_some_iff.2 ⟨h.msb, h.msb_fits⟩] at hnone
    cases hnone

/-- Not every range between two integers is as wide as it has bits. -/
theorem range_width_wrapped : ¬ ∀ (r : BitRange) (a b : Int), r.Bounded a b →
    BitRange.width (some r) = .ok (|a - b| + 1) := by
  intro h
  have hlong := h _ _ _ longPort_bounded
  rw [show BitRange.width _ = .ok (-9223372036854775808) from rfl] at hlong
  cases hlong

end TaskLoom
