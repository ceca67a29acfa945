import TaskLoom.Proofs.Description.Decoding
import TaskLoom.Proofs.Graph.Acceptance

/-!
# The sides of a stream

The check compares the two ends of a stream from two sides: an argument must stand on the side of
its stream that its category says, and an endpoint must lead to an instance with some stream
argument.  Together they make every endpoint the right one, unless both endpoints are one instance:
such an instance has one argument of the stream's name and is a writer or a reader, not both.
`stream_sides_iff` says that this is the only exception.
-/

namespace TaskLoom

/-- The producer writes to the stream, the consumer reads from it, and nobody else uses it. -/
structure Fifo.Directed (f : Fifo) (placed : List Instance) : Prop where
  producer : ∀ e, f.producer = some e → ∃ i ∈ placed, i.IsAt e ∧ i.Binds f.name .ostream
  consumer : ∀ e, f.consumer = some e → ∃ i ∈ placed, i.IsAt e ∧ i.Binds f.name .istream
  others : ∀ i ∈ placed, ∀ a ∈ i.args, a.name = f.name → a.category.isStream = true →
    ∃ e, i.IsAt e ∧ (f.producer = some e ∨ f.consumer = some e)

/-- One instance writes to the stream and one instance reads from it. -/
def Fifo.OneToOne (f : Fifo) (placed : List Instance) : Prop :=
  (∃! i, i ∈ placed ∧ i.Binds f.name .ostream) ∧ (∃! i, i ∈ placed ∧ i.Binds f.name .istream)

/-- Both ends of the stream are one instance. -/
def Fifo.IsLoop (f : Fifo) : Prop := ∃ e, f.producer = some e ∧ f.consumer = some e

namespace Program

variable {p : Program} {t : Task} {placed : List Instance} {f : Fifo} {i j : Instance}

theorem fifo?_mem (hnd : (t.fifoTable.map Fifo.name).Nodup) (hf : f ∈ t.fifoTable) :
    t.fifo? f.name = some f := by
  unfold Task.fifo?
  cases hfind : t.fifoTable.find? (·.name == f.name) with
  | none =>
    have hne := List.find?_eq_none.1 hfind f hf
    simp at hne
  | some g =>
    have hname : g.name = f.name := by simpa using List.find?_some hfind
    rw [List.inj_on_of_nodup_map hnd (List.mem_of_find?_eq_some hfind) hf hname]

/-- Two instances at one place are the same one. -/
theorem instance_eq (hd : p.Decoded) (ht : t ∈ p.taskTable) (h : p.instances t = .ok placed)
    (hi : i ∈ placed) (hj : j ∈ placed) {e : Endpoint} (hie : i.IsAt e) (hje : j.IsAt e) :
    i = j := by
  have hplace : (⟨i.task.name, i.index⟩ : Endpoint) = ⟨j.task.name, j.index⟩ := hie.symm.trans hje
  simp only [Endpoint.mk.injEq, Int.natCast_inj] at hplace
  obtain ⟨hname, hindex⟩ := hplace
  obtain ⟨c, hc, hic, hi⟩ := (mem_instances h).1 hi
  obtain ⟨d, hd', hjd, hj⟩ := (mem_instances h).1 hj
  have hcd : c = d := by
    refine List.inj_on_of_nodup_map (hd.children t ht) hc hd' ?_
    rw [← name_of_task? hic, ← name_of_task? hjd, hname]
  subst hcd
  obtain ⟨-, v, hv, hvs, hva⟩ := mem_instancesOf.1 hi
  obtain ⟨-, w, hw, hws, hwa⟩ := mem_instancesOf.1 hj
  have hvw : v = w := by
    rw [hindex, hw] at hv
    exact (Option.some.inj hv).symm
  have htask : i.task = j.task := Option.some.inj (hic.symm.trans hjd)
  cases i
  cases j
  simp_all

theorem args_nodup (hd : p.Decoded) (ht : t ∈ p.taskTable) (h : p.instances t = .ok placed)
    (hi : i ∈ placed) : (i.args.map Arg.name).Nodup := by
  obtain ⟨c, hc, -, hi⟩ := (mem_instances h).1 hi
  obtain ⟨-, v, hv, -, hargs⟩ := mem_instancesOf.1 hi
  exact hargs ▸ Text.nodup_sortedBy (hd.args t ht c hc v (List.mem_of_getElem? hv))

/-- An instance cannot be on both sides of one stream. -/
theorem not_binds_both (hd : p.Decoded) (ht : t ∈ p.taskTable) (h : p.instances t = .ok placed)
    (hi : i ∈ placed) {name : String} : ¬ (i.Binds name .ostream ∧ i.Binds name .istream) := by
  rintro ⟨⟨a, ha, han, hac⟩, ⟨b, hb, hbn, hbc⟩⟩
  have hab : a = b :=
    List.inj_on_of_nodup_map (args_nodup hd ht h hi) ha hb (han.trans hbn.symm)
  rw [hab, hbc] at hac
  cases hac

section
variable (hd : p.Decoded) (ht : t ∈ p.taskTable) (hc : p.Composed t placed) (hf : f ∈ t.fifoTable)
include hd ht hc hf

theorem at_producer (hi : i ∈ placed) (h : i.Binds f.name .ostream) :
    ∃ e, i.IsAt e ∧ f.producer = some e := by
  obtain ⟨a, ha, han, hac⟩ := h
  obtain ⟨g, e, hg, hge, hie⟩ := (hc.args i hi a ha).writes hac
  rw [han, fifo?_mem (hd.fifos t ht) hf] at hg
  exact ⟨e, hie, Option.some.inj hg ▸ hge⟩

theorem at_consumer (hi : i ∈ placed) (h : i.Binds f.name .istream) :
    ∃ e, i.IsAt e ∧ f.consumer = some e := by
  obtain ⟨a, ha, han, hac⟩ := h
  obtain ⟨g, e, hg, hge, hie⟩ := (hc.args i hi a ha).reads hac
  rw [han, fifo?_mem (hd.fifos t ht) hf] at hg
  exact ⟨e, hie, Option.some.inj hg ▸ hge⟩

omit hd ht in
/-- Each endpoint of a stream is an instance that uses the stream in some direction. -/
theorem exists_user {e : Endpoint} (he : f.producer = some e ∨ f.consumer = some e) :
    ∃ i ∈ placed, i.IsAt e ∧ (i.Binds f.name .ostream ∨ i.Binds f.name .istream) := by
  obtain ⟨⟨i, port⟩, hr⟩ := (hc.fifos f hf).resolves e he
  obtain ⟨placed', hp, hi, hie, a, ha, hs, -⟩ := resolve_ok hr
  rw [hc.instances] at hp
  cases hp
  have hmem : a ∈ i.args := List.mem_of_find?_eq_some ha
  have hname : a.name = f.name := by simpa using List.find?_some ha
  refine ⟨i, hi, hie, ?_⟩
  unfold Category.isStream at hs
  rcases Bool.or_eq_true _ _ ▸ hs with hcat | hcat
  · exact .inr ⟨a, hmem, hname, eq_of_beq hcat⟩
  · exact .inl ⟨a, hmem, hname, eq_of_beq hcat⟩

theorem directed_of_not_loop (hloop : ¬ f.IsLoop) : f.Directed placed := by
  refine ⟨fun e he => ?_, fun e he => ?_, fun i hi a ha han has => ?_⟩
  · obtain ⟨i, hi, hie, hw | hr⟩ := exists_user hc hf (.inl he)
    · exact ⟨i, hi, hie, hw⟩
    · obtain ⟨e', hie', hcons⟩ := at_consumer hd ht hc hf hi hr
      have hee : e' = e := hie'.trans hie.symm
      exact absurd ⟨e, he, hee ▸ hcons⟩ hloop
  · obtain ⟨i, hi, hie, hw | hr⟩ := exists_user hc hf (.inr he)
    · obtain ⟨e', hie', hprod⟩ := at_producer hd ht hc hf hi hw
      have hee : e' = e := hie'.trans hie.symm
      exact absurd ⟨e, hee ▸ hprod, he⟩ hloop
    · exact ⟨i, hi, hie, hr⟩
  · unfold Category.isStream at has
    rcases Bool.or_eq_true _ _ ▸ has with hcat | hcat
    · obtain ⟨e, hie, hcons⟩ := at_consumer hd ht hc hf hi ⟨a, ha, han, eq_of_beq hcat⟩
      exact ⟨e, hie, .inr hcons⟩
    · obtain ⟨e, hie, hprod⟩ := at_producer hd ht hc hf hi ⟨a, ha, han, eq_of_beq hcat⟩
      exact ⟨e, hie, .inl hprod⟩

/-- A stream from an instance to itself lacks a writer or a reader. -/
theorem not_both_of_loop (hloop : f.IsLoop) (hi : i ∈ placed) (hj : j ∈ placed)
    (hw : i.Binds f.name .ostream) (hr : j.Binds f.name .istream) : False := by
  obtain ⟨e, hprod, hcons⟩ := hloop
  obtain ⟨e₁, hie, he₁⟩ := at_producer hd ht hc hf hi hw
  obtain ⟨e₂, hje, he₂⟩ := at_consumer hd ht hc hf hj hr
  have hee : e₂ = e₁ := Option.some.inj ((he₂.symm.trans hcons).trans (hprod.symm.trans he₁))
  have hij : i = j := instance_eq hd ht hc.instances hi hj hie (hee ▸ hje)
  exact not_binds_both hd ht hc.instances hi ⟨hw, hij ▸ hr⟩

theorem directed_iff : f.Directed placed ↔ ¬ f.IsLoop := by
  refine ⟨fun hdir hloop => ?_, directed_of_not_loop hd ht hc hf⟩
  obtain ⟨i, hi, -, hw⟩ := hdir.producer _ hloop.choose_spec.1
  obtain ⟨j, hj, -, hr⟩ := hdir.consumer _ hloop.choose_spec.2
  exact not_both_of_loop hd ht hc hf hloop hi hj hw hr

theorem oneToOne_iff (hint : f.isExternal = false) : f.OneToOne placed ↔ ¬ f.IsLoop := by
  constructor
  · rintro ⟨⟨i, ⟨hi, hw⟩, -⟩, ⟨j, ⟨hj, hr⟩, -⟩⟩ hloop
    exact not_both_of_loop hd ht hc hf hloop hi hj hw hr
  · intro hloop
    have hdir := directed_of_not_loop hd ht hc hf hloop
    obtain ⟨hprod, hcons⟩ := (hc.fifos f hf).internal hint
    obtain ⟨e, he⟩ := Option.isSome_iff_exists.1 hprod
    obtain ⟨e', he'⟩ := Option.isSome_iff_exists.1 hcons
    obtain ⟨i, hi, hie, hw⟩ := hdir.producer e he
    obtain ⟨j, hj, hje, hr⟩ := hdir.consumer e' he'
    refine ⟨⟨i, ⟨hi, hw⟩, ?_⟩, ⟨j, ⟨hj, hr⟩, ?_⟩⟩
    · rintro k ⟨hk, hkw⟩
      obtain ⟨e₁, hke, he₁⟩ := at_producer hd ht hc hf hk hkw
      have hee : e₁ = e := Option.some.inj (he₁.symm.trans he)
      exact instance_eq hd ht hc.instances hk hi (hee ▸ hke) hie
    · rintro k ⟨hk, hkr⟩
      obtain ⟨e₁, hke, he₁⟩ := at_consumer hd ht hc hf hk hkr
      have hee : e₁ = e' := Option.some.inj (he₁.symm.trans he')
      exact instance_eq hd ht hc.instances hk hj (hee ▸ hke) hje

end

/-- In a decoded program that is accepted, the endpoints of a stream have the right direction and
are its only users, and a stream with depth joins one writer to one reader: always, except where
both endpoints are one instance, and then never. -/
theorem stream_sides_iff {v : Value} (hv : Description.ofValue v = .ok p)
    (hcheck : Program.check (some p) = .ok ()) (ht : t ∈ p.taskTable) (htc : t.isComposite = true) :
    ∃ placed, p.instances t = .ok placed ∧ ∀ f ∈ t.fifoTable,
      (f.Directed placed ↔ ¬ f.IsLoop) ∧
      (f.isExternal = false → (f.OneToOne placed ↔ ¬ f.IsLoop)) := by
  have hd := decoded_of_ofValue hv
  obtain ⟨placed, hc⟩ := (accepted_of_check hcheck).composed t ht htc
  exact ⟨placed, hc.instances, fun f hf =>
    ⟨directed_iff hd ht hc hf, oneToOne_iff hd ht hc hf⟩⟩

/-- The placement of a child with one stream argument. -/
def streamUser (category : String) : Value :=
  .list [.object [
    ("args", .object [("q", .object [("cat", .text category), ("port", .text "q")])]),
    ("step", .number (.int 0))]]

def leafEntry : Value :=
  .object [("fifos", .null), ("level", .text "lower"), ("ports", .null), ("tasks", .null)]

/-- A description of a task with one stream `q`, from an instance of `A` to one of `consumer`. -/
def streamTree (consumer : String) (users : List (String × Value)) : Value :=
  .object [
    ("tasks", .object [
      ("A", leafEntry),
      ("B", leafEntry),
      ("Top", .object [
        ("fifos", .object [("q", .object [
          ("consumed_by", .list [.text consumer, .number (.int 0)]),
          ("depth", .number (.int 2)),
          ("produced_by", .list [.text "A", .number (.int 0)])])]),
        ("level", .text "upper"),
        ("ports", .null),
        ("tasks", .object users)])]),
    ("top", .text "Top")]

def straightTree : Value :=
  streamTree "B" [("A", streamUser "ostream"), ("B", streamUser "istream")]

def loopTree : Value := streamTree "A" [("A", streamUser "istream")]

def straightTask : Task where
  name := "Top"
  level := .composite
  childTable := [⟨"A", [⟨0, [⟨"q", .ostream, "q"⟩]⟩]⟩, ⟨"B", [⟨0, [⟨"q", .istream, "q"⟩]⟩]⟩]
  fifoTable := [⟨"q", 2, some ⟨"A", 0⟩, some ⟨"B", 0⟩⟩]

def loopTask : Task where
  name := "Top"
  level := .composite
  childTable := [⟨"A", [⟨0, [⟨"q", .istream, "q"⟩]⟩]⟩]
  fifoTable := [⟨"q", 2, some ⟨"A", 0⟩, some ⟨"A", 0⟩⟩]

/-- The program of a task above the two leaves. -/
def aboveLeaves (t : Task) : Program :=
  ⟨"Top", [{ name := "A", level := .leaf }, { name := "B", level := .leaf }, t]⟩

theorem ofValue_straightTree :
    Description.ofValue straightTree = .ok (aboveLeaves straightTask) := rfl

theorem ofValue_loopTree : Description.ofValue loopTree = .ok (aboveLeaves loopTask) := rfl

theorem check_straight : Program.check (some (aboveLeaves straightTask)) = .ok () := by
  with_unfolding_all rfl

theorem check_loop : Program.check (some (aboveLeaves loopTask)) = .ok () := by
  with_unfolding_all rfl

theorem stream_sides_straight : ∃ placed, (aboveLeaves straightTask).instances straightTask =
    .ok placed ∧ ∀ f ∈ straightTask.fifoTable, f.Directed placed ∧ f.OneToOne placed := by
  obtain ⟨placed, hplaced, hall⟩ := stream_sides_iff ofValue_straightTree check_straight
    (t := straightTask) (by decide) (by decide)
  refine ⟨placed, hplaced, fun f hf => ?_⟩
  obtain ⟨hdir, hone⟩ := hall f hf
  obtain rfl : f = ⟨"q", 2, some ⟨"A", 0⟩, some ⟨"B", 0⟩⟩ := List.mem_singleton.1 hf
  have hloop : ¬ Fifo.IsLoop ⟨"q", 2, some ⟨"A", 0⟩, some ⟨"B", 0⟩⟩ := by
    rintro ⟨e, hp, hc⟩
    exact absurd (hp.trans hc.symm) (by decide)
  exact ⟨hdir.2 hloop, (hone (by decide)).2 hloop⟩

/-- An accepted program with a stream that nobody writes to. -/
theorem loop_without_writer : Description.ofValue loopTree = .ok (aboveLeaves loopTask) ∧
    Program.check (some (aboveLeaves loopTask)) = .ok () ∧
    ∃ placed, (aboveLeaves loopTask).instances loopTask = .ok placed ∧
      ∀ i ∈ placed, ¬ i.Binds "q" .ostream := by
  refine ⟨ofValue_loopTree, check_loop, _, rfl, fun i hi => ?_⟩
  obtain rfl := List.mem_singleton.1 hi
  rintro ⟨a, ha, -, hcat⟩
  obtain rfl := List.mem_singleton.1 ha
  cases hcat

end Program

end TaskLoom
