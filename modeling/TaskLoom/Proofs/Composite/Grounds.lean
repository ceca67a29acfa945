import TaskLoom.Proofs.Composite.Generated

/-!
# Why a generation fails

`Build.FailsFor b E`: if the step `b` fails, then with a failure that satisfies `E`.  Steps one
after the other fail for what one of them fails for (`FailsFor.bind`).  `Build.FailsKnowing b K E`
says so only of drafts in which the names `K` are declared; what follows such a step knows them as
well (`FailsKnowing.bind`).

`Plan.Grounds p e`: what the failure `e` says of the plan `p` is so; for example, the child that it
names lacks the port.  Every step on the draft of a plan fails on such grounds only
(`Plan.grounds_build`).  `Plan.OtherGrounds` leaves out the one failure that depends on the draft:
an argument without a port of the parent.

Main statement: so does a generation, with the modules that are at hand when it stops
(`grounds_of_generate`).
-/

namespace TaskLoom

open Build

namespace Build

variable {α β : Type} {b : Build α} {f : α → Build β} {E : WiringError → Prop}

/-- If the step fails, then with a failure that satisfies `E`. -/
def FailsFor (b : Build α) (E : WiringError → Prop) : Prop := ∀ d e d', b d = .error e d' → E e

namespace FailsFor

theorem pure {a : α} : FailsFor (Pure.pure a) E := by
  intro d e d' h
  cases h

theorem throw {e : WiringError} (he : E e) : FailsFor (MonadExcept.throw e : Build α) E := by
  intro d e' d' h
  cases h
  exact he

theorem bind_of_ok (h : b.FailsFor E) (hf : ∀ d a d', b d = .ok a d' → (f a).FailsFor E) :
    (b >>= f).FailsFor E := by
  intro d e d' hr
  rcases bind_error.1 hr with hb | ⟨a, d₁, hb, hr⟩
  · exact h d e d' hb
  · exact hf d a d₁ hb d₁ e d' hr

theorem bind (h : b.FailsFor E) (hf : ∀ a, (f a).FailsFor E) : (b >>= f).FailsFor E :=
  h.bind_of_ok fun _ a _ _ => hf a

theorem mono {E' : WiringError → Prop} (h : b.FailsFor E) (hE : ∀ e, E e → E' e) : b.FailsFor E' :=
  fun d e d' hr => hE e (h d e d' hr)

/-- What a step has read is known to the next one. -/
theorem reads_bind {R : α → Prop} (hr : b.Reads R) (h : b.FailsFor E)
    (hf : ∀ a, R a → (f a).FailsFor E) : (b >>= f).FailsFor E :=
  h.bind_of_ok fun d a d' ha => hf a (hr d a d' ha).2

theorem ite {p : Prop} [Decidable p] {b' : Build α} (h : p → b.FailsFor E)
    (h' : ¬ p → b'.FailsFor E) : (if p then b else b').FailsFor E := by
  split
  · exact h ‹_›
  · exact h' ‹_›

theorem map {g : α → β} (h : b.FailsFor E) : (g <$> b).FailsFor E := by
  rw [map_eq_pure_bind]
  exact h.bind fun _ => pure

theorem forM {f : α → Build PUnit} {l : List α} (h : ∀ a ∈ l, (f a).FailsFor E) :
    (l.forM f).FailsFor E := by
  induction l with
  | nil => exact pure
  | cons a l ih =>
    exact bind (h a List.mem_cons_self) fun _ => ih fun a' ha' => h a' (List.mem_cons_of_mem _ ha')

theorem get : FailsFor (MonadState.get : Build Draft) E := by
  intro d e d' h
  cases h

theorem modify {g : Draft → Draft} : FailsFor (modify g : Build Unit) E := by
  intro d e d' h
  cases h

theorem note (task : String) (level : LogLevel) (message : String)
    (fields : List (String × LogValue)) : (Build.note task level message fields).FailsFor E :=
  modify

theorem module : Build.module.FailsFor E := get.bind fun _ => pure

theorem add (items : List Item) (h : ∀ e, E (.build e)) : (Build.add items).FailsFor E := by
  refine get.bind fun d => ?_
  split
  · intro d e d' h
    cases h
  · exact throw (h _)

theorem pipeline (p : Pipeline) (seed : Expr) (h : ∀ e, E (.build e)) :
    (Build.pipeline p seed).FailsFor E := add _ h

theorem require (r : Except NoSuchPort α) (h : ∀ e, E (.port e)) :
    (Build.require r).FailsFor E := by
  cases r with
  | ok a => exact pure
  | error e => exact throw (h e)

end FailsFor

/-- If the step fails on a draft that has declared `K`, then with a failure that satisfies `E`. -/
def FailsKnowing (b : Build α) (K : List String) (E : WiringError → Prop) : Prop :=
  ∀ d e d', (∀ n ∈ K, d.module.declared n = true) → b d = .error e d' → E e

namespace FailsKnowing

variable {K : List String}

theorem of_failsFor {E' : WiringError → Prop} (h : b.FailsFor E') (hE : ∀ e, E' e → E e) :
    b.FailsKnowing K E := fun d e d' _ hr => hE e (h d e d' hr)

theorem failsFor (h : b.FailsKnowing [] E) : b.FailsFor E := fun d e d' hr => h d e d' nofun hr

theorem pure {a : α} : FailsKnowing (Pure.pure a) K E := .of_failsFor .pure fun _ h => h

/-- What follows a refusal does not matter. -/
theorem throw_bind {e : WiringError} (he : E e) :
    FailsKnowing ((MonadExcept.throw e : Build α) >>= f) K E := by
  intro d e' d' _ hr
  cases hr
  exact he

/-- What a step adds stays declared. -/
theorem bind {P : Module → List Item → α → Prop} (h : b.FailsKnowing K E) (hadds : b.Adds P)
    (hf : ∀ a, (f a).FailsKnowing K E) : (b >>= f).FailsKnowing K E := by
  intro d e d' hK hr
  rcases bind_error.1 hr with hb | ⟨a, d₁, hb, hr⟩
  · exact h d e d' hK hb
  · obtain ⟨items, hitems, -⟩ := hadds d a d₁ hb
    exact hf a d₁ e d' (fun n hn => (Module.declared_addAll hitems).2 (.inl (hK n hn))) hr

theorem ite {p : Prop} [Decidable p] {b' : Build α} (h : p → b.FailsKnowing K E)
    (h' : ¬ p → b'.FailsKnowing K E) : (if p then b else b').FailsKnowing K E := by
  split
  · exact h ‹_›
  · exact h' ‹_›

end FailsKnowing

end Build

/-! ### What a failure says of a plan -/

/-- The side of a stream that tells its width. -/
def Fifo.source (f : Fifo) : Option Endpoint := f.producer.or f.consumer

/-- A task declares a port, or one of some instances has an argument, of the category. -/
def Task.Mentions (t : Task) (insts : List Instance) (k : Category) : Prop :=
  (∃ q ∈ t.ports, q.category = k) ∨ ∃ i ∈ insts, ∃ a ∈ i.args, a.category = k

/-- What the failure says of the plan is so.  What it says of the module under construction is left
open. -/
def Plan.Grounds (p : Plan) : WiringError → Prop
  | .unsupported _ k => k.isValid = false ∧ p.task.Mentions (p.children.map Placement.inst) k
  | .width module port e => ∃ m ∈ p.parts.modules.map Prod.snd, m.name = module ∧
      ∃ q ∈ m.ports, q.name = port ∧ BitRange.width q.range = .error e
  | .reference e => ∃ f ∈ p.task.fifoTable, p.program.resolve p.task f.name f.source = .error e
  | .externalSides fifo => ∃ f ∈ p.task.fifoTable, f.name = fifo ∧ f.isExternal = true ∧
      f.producer.isSome = f.consumer.isSome
  | .noProducer fifo => ∃ f ∈ p.task.fifoTable, f.name = fifo ∧ f.isExternal = false ∧
      f.producer = none
  | .noConsumer fifo => ∃ f ∈ p.task.fifoTable, f.name = fifo ∧ f.isExternal = false ∧
      f.consumer = none
  | .sideWithoutModule fifo placed => ∃ f ∈ p.task.fifoTable, f.name = fifo ∧ ∃ i port,
      p.program.resolve p.task f.name f.source = .ok (i, port) ∧ i.name = placed ∧
        p.parts.module? i.task.name = none
  | .noChildPort placed module port => ∃ c ∈ p.children, c.name = placed ∧
      c.module.name = module ∧ c.module.port? port = none
  | .unknownDataWidth placed arg => ∃ c ∈ p.children, c.name = placed ∧ ∃ a ∈ c.inst.args,
      a.name = arg ∧ channelWidth? c.module a.port ["write_data", "read_data"] = none
  | .noOffsetPort placed module port => ∃ c ∈ p.children, c.name = placed ∧
      c.module.name = module ∧ offsetPort? c.module port = none
  | .noChannel placed module port => ∃ c ∈ p.children, c.name = placed ∧
      c.module.name = module ∧ ∃ a ∈ c.inst.args, a.port = port ∧
        ∀ ch ∈ channelNames, channelBindings c.module a ch = []
  | .build _ | .port _ | .noHandshakePort _ | .noParentPort .. => True

/-- Whether the failure is that an argument has no port of the parent. -/
def WiringError.isParentPort : WiringError → Bool
  | .noParentPort .. => true
  | _ => false

/-- A failure that has nothing to do with the ports of the parent. -/
def Plan.OtherGrounds (p : Plan) (e : WiringError) : Prop := p.Grounds e ∧ e.isParentPort = false

/-- The modules of the children are at hand. -/
def Plan.Supplied (p : Plan) : Prop :=
  ∀ c ∈ p.children, p.parts.module? c.inst.task.name = some c.module

theorem Parts.mem_of_module? {parts : Parts} {n : String} {m : Module}
    (h : parts.module? n = some m) : m ∈ parts.modules.map Prod.snd := by
  obtain ⟨entry, hentry, rfl⟩ := Option.map_eq_some_iff.1 h
  exact List.mem_map_of_mem (List.mem_of_find?_eq_some hentry)

namespace Plan

variable {p : Plan} {c : Placement} {a : Arg}

theorem grounds_add (items : List Item) : (Build.add items).FailsFor p.OtherGrounds :=
  .add _ fun _ => ⟨trivial, rfl⟩

theorem grounds_pipeline (q : Pipeline) (seed : Expr) :
    (Build.pipeline q seed).FailsFor p.OtherGrounds := .pipeline _ _ fun _ => ⟨trivial, rfl⟩

theorem grounds_require {α : Type} (r : Except NoSuchPort α) :
    (Build.require r).FailsFor p.OtherGrounds := .require _ fun _ => ⟨trivial, rfl⟩

theorem grounds_portWidth (h : c.module ∈ p.parts.modules.map Prod.snd) (port suffix : String) :
    (c.portWidth port suffix).FailsFor p.OtherGrounds := by
  refine .reads_bind (reads_require _) (grounds_require _) fun q hq => ?_
  unfold Build.widthOf
  split
  · exact .pure
  · rename_i e he
    exact .throw ⟨⟨_, h, rfl, q, mem_of_portOf hq, rfl, he⟩, rfl⟩

theorem grounds_addInterface {name : String} {k : Category} {width : Int}
    (h : p.task.Mentions (p.children.map Placement.inst) k) :
    (p.addInterface name k width).FailsFor p.OtherGrounds := by
  refine .bind ?_ fun ps => grounds_add _
  unfold interfacePorts
  cases k with
  | unknown code => exact .throw ⟨⟨rfl, h⟩, rfl⟩
  | _ => exact .pure

theorem mentions_arg (hc : c ∈ p.children) (ha : a ∈ c.inst.args) :
    p.task.Mentions (p.children.map Placement.inst) a.category :=
  .inr ⟨c.inst, List.mem_map_of_mem hc, a, ha, rfl⟩

theorem Supplied.mem (h : p.Supplied) (hc : c ∈ p.children) :
    c.module ∈ p.parts.modules.map Prod.snd := Parts.mem_of_module? (h c hc)

theorem Supplied.grounds_deriveArg (h : p.Supplied) (hc : c ∈ p.children) (ha : a ∈ c.inst.args) :
    (p.deriveArg c a).FailsFor p.OtherGrounds := by
  have hadd (width : Int) : (p.addInterface a.name a.category width).FailsFor p.OtherGrounds :=
    grounds_addInterface (mentions_arg hc ha)
  have hport (suffix : String) : (c.portWidth a.port suffix).FailsFor p.OtherGrounds :=
    grounds_portWidth (h.mem hc) _ _
  unfold deriveArg
  refine FailsFor.module.bind fun m => .ite (fun _ => .pure) fun _ => ?_
  refine .ite (fun _ => ?_) fun _ => .ite (fun _ => (hport _).bind hadd) fun _ => hadd 0
  split
  · exact .pure
  · exact .ite (fun _ => (hport _).bind hadd) fun _ => .pure

theorem grounds_requireHandshake (m : Module) (names : List String) :
    (requireHandshake m names).FailsFor p.OtherGrounds := by
  induction names with
  | nil => exact .pure
  | cons n names ih => exact .ite (fun _ => .throw ⟨trivial, rfl⟩) fun _ => ih

theorem Supplied.grounds_declareInterface (h : p.Supplied) :
    p.declareInterface.FailsFor p.OtherGrounds := by
  have hderive : p.deriveInterface.FailsFor p.OtherGrounds := by
    refine (grounds_add _).bind fun _ => .ite (fun _ => ?_) fun _ => ?_
    · exact .forM fun c hc => .forM fun a ha => h.grounds_deriveArg hc ha
    · exact .forM fun q hq => grounds_addInterface (.inl ⟨q, hq, rfl⟩)
  unfold declareInterface
  split
  · refine .bind ((grounds_add _).bind fun _ => grounds_add _) fun _ => ?_
    exact FailsFor.module.bind fun m => (grounds_requireHandshake m _).bind fun _ => grounds_add _
  · refine hderive.bind fun _ => ?_
    exact FailsFor.module.bind fun m => (grounds_requireHandshake m _).bind fun _ => grounds_add _

section
variable {f : Fifo}

theorem grounds_checkSides (hf : f ∈ p.task.fifoTable) : f.checkSides.FailsFor p.OtherGrounds := by
  unfold Fifo.checkSides
  refine .ite (fun hext => .ite (fun hsides => .throw ⟨⟨f, hf, rfl, hext, ?_⟩, rfl⟩) fun _ => .pure)
    fun hint => ?_
  · rw [beq_iff_eq] at hsides
    rw [← Option.not_isNone, ← Option.not_isNone, hsides]
  · rw [Bool.not_eq_true] at hint
    refine .ite (fun hp => .throw ⟨⟨f, hf, rfl, hint, Option.isNone_iff_eq_none.1 hp⟩, rfl⟩)
      fun _ => ?_
    exact .ite (fun hc => .throw ⟨⟨f, hf, rfl, hint, Option.isNone_iff_eq_none.1 hc⟩, rfl⟩)
      fun _ => .pure

theorem grounds_streamWidth (hf : f ∈ p.task.fifoTable) :
    (p.streamWidth f).FailsFor p.OtherGrounds := by
  have hsource : f.source = f.producer.or f.consumer := rfl
  unfold streamWidth
  cases hp : f.producer
  -- either side is looked up in the same way
  all_goals
    rw [hp] at hsource
    dsimp only
    split
    · rename_i e he
      exact .throw ⟨⟨f, hf, by rw [hsource]; exact he⟩, rfl⟩
    · rename_i i port hr
      split
      · rename_i hm
        exact .throw ⟨⟨f, hf, rfl, i, port, by rw [hsource]; exact hr, rfl, hm⟩, rfl⟩
      · rename_i m hm
        exact grounds_portWidth (Parts.mem_of_module? hm) _ _

theorem grounds_connectExternal (f : Fifo) : (connectExternal f).FailsFor p.OtherGrounds := by
  refine FailsFor.module.bind fun m => (grounds_require _).bind fun data => ?_
  exact (grounds_require _).bind fun flag => (grounds_require _).bind fun enable => grounds_add _

theorem grounds_addStream (hf : f ∈ p.task.fifoTable) : (p.addStream f).FailsFor p.OtherGrounds := by
  refine (grounds_checkSides hf).bind fun _ => (grounds_streamWidth hf).bind fun w => ?_
  refine (grounds_add _).bind fun _ => .ite (fun _ => grounds_connectExternal f) fun _ => ?_
  exact (grounds_add _).bind fun _ => .ite (fun _ => grounds_add _) fun _ => .pure

end

/-- The source of an argument is not found, or its width is not known. -/
theorem Supplied.argSource_error (h : p.Supplied) (hc : c ∈ p.children) {d d' : Draft}
    {e : WiringError} (hr : p.argSource c a d = .error e d') : p.OtherGrounds e ∨
      Literal.sized? a.name = none ∧ parentSignal? d.module a = none ∧
        e = .noParentPort c.name a.category a.name := by
  have hwidth (signal : String) : (p.scalarWidth c a signal).FailsFor p.OtherGrounds := by
    unfold scalarWidth
    refine FailsFor.module.bind fun m => ?_
    split
    · exact .pure
    · split
      · exact .pure
      · exact grounds_portWidth (h.mem hc) _ _
  unfold argSource at hr
  cases hconst : Literal.sized? a.name with
  | some s =>
    rw [hconst] at hr
    cases hr
  | none =>
    rw [hconst] at hr
    rcases bind_error.1 hr with hmodule | ⟨m, d₁, hmodule, hr⟩
    · cases hmodule
    cases hmodule
    cases hsignal : parentSignal? d.module a with
    | none =>
      rw [hsignal] at hr
      cases hr
      exact .inr ⟨rfl, rfl, rfl⟩
    | some signal =>
      rw [hsignal] at hr
      refine .inl (FailsFor.ite (fun _ => .pure) (fun _ => (hwidth signal).bind fun _ => .pure)
        _ e d' hr)

theorem grounds_bindStream (suffixes : List String) :
    (bindStream c a suffixes).FailsFor p.OtherGrounds := by
  induction suffixes with
  | nil => exact .pure
  | cons suffix suffixes ih => exact (grounds_require _).bind fun q => ih.bind fun _ => .pure

section
variable (h : p.Supplied) (hc : c ∈ p.children) (ha : a ∈ c.inst.args) (tap : Expr)
include h hc ha

theorem Supplied.grounds_dataWidth : (p.dataWidth c a).FailsFor p.OtherGrounds := by
  unfold dataWidth
  split
  · exact .pure
  · refine .ite (fun _ => ?_) fun _ => grounds_portWidth (h.mem hc) _ _
    split
    · exact .pure
    · rename_i hnone
      exact .throw ⟨⟨c, hc, rfl, a, ha, rfl, hnone⟩, rfl⟩

theorem Supplied.grounds_bindBus : (p.bindBus c a tap).FailsFor p.OtherGrounds := by
  unfold bindBus
  refine (h.grounds_dataWidth hc ha).bind fun w => .bind (grounds_add _) fun _ => ?_
  split
  · rename_i hnone
    exact .throw ⟨⟨c, hc, rfl, rfl, hnone⟩, rfl⟩
  · exact .ite (fun _ => (FailsFor.note _ _ _ _).bind fun _ => .pure) fun _ => .pure

theorem Supplied.grounds_bindChannels : (p.bindChannels c a tap).FailsFor p.OtherGrounds := by
  unfold bindChannels
  refine (h.grounds_dataWidth hc ha).bind fun w => (grounds_add _).bind fun _ => ?_
  refine .ite (fun hused => .bind (.throw ⟨⟨c, hc, rfl, rfl, a, ha, rfl, ?_⟩, rfl⟩) fun _ => ?_)
    fun _ => ?_
  · rw [List.isEmpty_iff, List.filter_eq_nil_iff] at hused
    exact fun ch hch => by simpa using hused ch hch
  all_goals exact (FailsFor.note _ _ _ _).bind fun _ => FailsFor.modify.bind fun _ => .pure

theorem Supplied.grounds_bindArg : (p.bindArg c a tap).FailsFor p.OtherGrounds := by
  unfold bindArg
  split
  · exact (grounds_require _).bind fun _ => .pure
  · exact grounds_bindStream _
  · exact grounds_bindStream _
  · exact h.grounds_bindBus hc ha tap
  · exact h.grounds_bindChannels hc ha tap
  · rename_i hk
    exact .throw ⟨⟨by rw [hk]; rfl, mentions_arg hc ha⟩, rfl⟩

end

section
variable (h : p.Supplied) (hc : c ∈ p.children)
include h hc

theorem Supplied.grounds_bindArgs (taps : List (String × Pipeline)) {as : List Arg}
    (has : as ⊆ c.inst.args) : (p.bindArgs c taps as).FailsFor p.OtherGrounds := by
  induction as with
  | nil => exact .pure
  | cons a as ih =>
    refine (h.grounds_bindArg hc (has List.mem_cons_self) _).bind fun bound => ?_
    exact (ih fun a' ha' => has (List.mem_cons_of_mem _ ha')).bind fun _ => .pure

omit h in
theorem grounds_requireControls (ports : List String) :
    (requireControls c ports).FailsFor p.OtherGrounds := by
  induction ports with
  | nil => exact .pure
  | cons port ports ih =>
    refine .ite (fun hnone => .throw ⟨⟨c, hc, rfl, rfl, ?_⟩, rfl⟩) fun _ => ih
    exact Option.isNone_iff_eq_none.1 hnone

omit h in
theorem grounds_addHandshake (level : Nat) (reset : Pipeline) :
    (addHandshake level c reset).FailsFor p.OtherGrounds := by
  refine (grounds_requireControls hc _).bind fun _ => (grounds_add _).bind fun _ => ?_
  refine (grounds_pipeline _ _).bind fun _ => (grounds_pipeline _ _).bind fun _ => ?_
  exact (grounds_pipeline _ _).bind fun _ => (grounds_add _).bind fun _ => .pure

end

theorem grounds_addAdapters : p.addAdapters.FailsFor p.OtherGrounds := by
  refine .ite (fun _ => FailsFor.get.bind fun d => .forM fun u _ => ?_) fun _ => .pure
  exact .bind (grounds_add _) fun _ => FailsFor.get.bind fun _ => grounds_add _

section
variable {K : List String} {E : WiringError → Prop} (h : p.Supplied)
  (hE : ∀ e, p.OtherGrounds e → E e)
  (hsource : ∀ c ∈ p.children, ∀ a ∈ c.inst.args, a.category.isStream = false →
    (p.argSource c a).FailsKnowing K E)
include hE hsource

theorem failsKnowing_delayArg (hc : c ∈ p.children) (ha : a ∈ c.inst.args) :
    (p.delayArg c a).FailsKnowing K E := by
  have hdelay (hstream : a.category.isStream = false) : FailsKnowing (do
      let s ← p.argSource c a
      let q := Pipeline.make (instanceArg c.name a.name) p.options.registerLevel s.2
      Build.pipeline q s.1
      modify fun d => { d with taps := (a.name, q) :: d.taps }
      return some (a.name, q)) K E := by
    refine .bind (hsource c hc a ha hstream) (p.silent_argSource c a) fun s => ?_
    refine .bind (.of_failsFor (grounds_pipeline _ _) hE) (adds_pipeline _ _) fun _ => ?_
    exact .bind (.of_failsFor .modify hE) (silent_modify fun _ => rfl) fun _ => .pure
  unfold delayArg
  refine .ite (fun hk => .throw_bind (hE _ ⟨⟨by simpa using hk, mentions_arg hc ha⟩, rfl⟩))
    fun _ => .ite (fun _ => .pure) fun hstream => ?_
  exact hdelay (by simpa using hstream)

theorem failsKnowing_delayArgs (hc : c ∈ p.children) {as : List Arg} (has : as ⊆ c.inst.args) :
    (p.delayArgs c as).FailsKnowing K E := by
  induction as with
  | nil => exact .pure
  | cons a as ih =>
    obtain ⟨ha, has⟩ := List.cons_subset.1 has
    refine .bind (failsKnowing_delayArg hE hsource hc ha) (p.wires_delayArg c a) fun tap => ?_
    exact .bind (ih has) (p.wires_delayArgs c as) fun _ => .pure

include h

theorem Supplied.failsKnowing_addChild (hc : c ∈ p.children) :
    (p.addChild c).FailsKnowing K E := by
  have hstart : (startChild p.options.registerLevel c).FailsFor p.OtherGrounds :=
    .ite (fun _ => (grounds_add _).bind fun _ => .pure) fun _ => (grounds_addHandshake hc _ _).map
  rw [p.addChild_eq c]
  refine .bind (.of_failsFor (grounds_pipeline _ _) hE) (adds_pipeline _ _) fun _ => ?_
  refine .bind (failsKnowing_delayArgs hE hsource hc (List.Subset.refl _))
    (p.wires_delayArgs c _) fun taps => ?_
  refine .bind (.of_failsFor hstart hE) (wires_startChild _ c) fun finished => ?_
  refine .of_failsFor (.bind ?_ fun _ => .pure) hE
  exact (h.grounds_bindArgs hc taps (List.Subset.refl _)).bind fun _ => grounds_add _

theorem Supplied.failsKnowing_addChildren {cs : List Placement} (hcs : cs ⊆ p.children) :
    (p.addChildren cs).FailsKnowing K E := by
  induction cs with
  | nil => exact .pure
  | cons c cs ih =>
    obtain ⟨hc, hcs⟩ := List.cons_subset.1 hcs
    refine .bind (h.failsKnowing_addChild hE hsource hc) (p.wires_addChild c) fun finished => ?_
    exact .bind (ih hcs) (p.wires_addChildren cs) fun _ => .pure

/-- What follows the interface fails for what the search for the source of an argument fails for,
and otherwise on grounds that have nothing to do with the ports of the parent. -/
theorem Supplied.failsKnowing_body : FailsKnowing (do
    Build.add ((controlSignals p.options.registerLevel).map .signal)
    let finished ← p.body
    Build.add ((controlLogic p.options.registerLevel finished).map .logic)
    Build.note p.task.name .debug "generated module"
      [("instances", .number p.children.length), ("fifos", .number p.task.fifoTable.length)]) K E := by
  refine .bind (.of_failsFor (grounds_add _) hE) (adds_add _) fun _ => ?_
  refine .bind ?_ p.wires_body fun finished =>
    .of_failsFor ((grounds_add _).bind fun _ => .note _ _ _ _) hE
  refine .bind (.of_failsFor (grounds_pipeline _ _) hE) (adds_pipeline _ _) fun _ => ?_
  refine .bind (.of_failsFor (grounds_pipeline _ _) hE) (adds_pipeline _ _) fun _ => ?_
  refine .bind (.of_failsFor (.forM fun f hf => grounds_addStream (Task.mem_fifos.1 hf)) hE)
    (Wires.forM _ fun f _ => p.wires_addStream f) fun _ => ?_
  refine .bind (h.failsKnowing_addChildren hE hsource (List.Subset.refl _))
    (p.wires_addChildren _) fun _ => ?_
  exact .of_failsFor (grounds_addAdapters.bind fun _ => .pure) hE

end

/-- Building the module of a plan fails for a reason that lies in the plan or in the module. -/
theorem Supplied.grounds_build (h : p.Supplied) : p.build.FailsFor p.Grounds := by
  have hE : ∀ e, p.OtherGrounds e → p.Grounds e := fun _ he => he.1
  rw [p.build_eq]
  refine (h.grounds_declareInterface.mono hE).bind fun _ => FailsKnowing.failsFor ?_
  refine h.failsKnowing_body hE fun c hc a _ _ d e d' _ hr => ?_
  rcases h.argSource_error hc hr with he | ⟨-, -, rfl⟩
  · exact hE e he
  · trivial

end Plan

/-! ### Generations -/

/-- What the failure of a generation says of the program and of the modules at hand is so. -/
def ComposeError.Grounds (o : Options) (program : Program) (parts : Parts) : ComposeError → Prop
  | .reference e =>
    program.compositeOrder = .error e ∨ ∃ t ∈ program.taskTable, program.instances t = .error e
  | .notComposite name => ∃ t ∈ program.taskTable, t.name = name ∧ t.isComposite = false
  | .childWithoutModule name placed => ∃ t ∈ program.taskTable, t.name = name ∧ ∃ insts,
      program.instances t = .ok insts ∧ ∃ i ∈ insts, i.name = placed ∧
        parts.module? i.task.name = none
  | .inTask name e => ∃ t ∈ program.taskTable, t.name = name ∧ ∃ p, plan o program parts t = .ok p ∧
      p.Grounds e

section
variable {o : Options} {program : Program} {parts : Parts} {t : Task}

theorem placements_error {task : String} {insts : List Instance} {e : ComposeError}
    (h : placements parts task insts = .error e) :
    ∃ i ∈ insts, e = .childWithoutModule task i.name ∧ parts.module? i.task.name = none := by
  induction insts with
  | nil => cases h
  | cons i insts ih =>
    unfold placements at h
    split at h
    · rename_i hnone
      cases h
      exact ⟨i, List.mem_cons_self, rfl, hnone⟩
    · cases hr : placements parts task insts with
      | error e' =>
        rw [hr] at h
        cases h
        obtain ⟨j, hj, he⟩ := ih hr
        exact ⟨j, List.mem_cons_of_mem _ hj, he⟩
      | ok cs =>
        rw [hr] at h
        cases h

theorem grounds_of_plan (ht : t ∈ program.taskTable) {e : ComposeError}
    (h : plan o program parts t = .error e) : e.Grounds o program parts := by
  unfold plan at h
  simp only [bind, Except.bind, pure, Except.pure] at h
  split at h
  · rename_i hleaf
    cases h
    exact ⟨t, ht, rfl, by simpa using hleaf⟩
  · split at h
    · rename_i e' he'
      cases h
      exact .inr ⟨t, ht, he'⟩
    · rename_i insts hinsts
      cases hcs : placements parts t.name insts with
      | ok cs => simp [hcs] at h
      | error e' =>
        rw [hcs] at h
        cases h
        obtain ⟨i, hi, rfl, hnone⟩ := placements_error hcs
        exact ⟨t, ht, rfl, insts, hinsts, i, hi, rfl, hnone⟩

theorem supplied_of_plan {p : Plan} (h : plan o program parts t = .ok p) : p.Supplied := by
  obtain ⟨insts, cs, -, hcs, rfl⟩ := plan_ok h
  exact module?_placements hcs

theorem grounds_of_generateTask (ht : t ∈ program.taskTable) {e : ComposeError}
    (h : (generateTask o program parts t).2 = .error e) : e.Grounds o program parts := by
  unfold generateTask at h
  split at h
  · rename_i e' he'
    cases h
    exact grounds_of_plan ht he'
  · rename_i p hp
    split at h
    · cases h
    · rename_i w d hw
      cases h
      exact ⟨t, ht, rfl, p, hp, (supplied_of_plan hp).grounds_build _ _ _ hw⟩

theorem grounds_of_generateTasks {ts : List Task} (hts : ts ⊆ program.taskTable) {e : ComposeError}
    (h : (generateTasks o program parts ts).result = .error e) :
    e.Grounds o program (generateTasks o program parts ts).parts := by
  induction ts generalizing parts with
  | nil => cases h
  | cons t ts ih =>
    unfold generateTasks at h ⊢
    rcases hg : generateTask o program parts t with ⟨log, e' | m⟩
    · rw [hg] at h
      cases h
      exact grounds_of_generateTask (hts List.mem_cons_self) (congrArg Prod.snd hg)
    · simp only [hg] at h ⊢
      cases hr : (generateTasks o program (parts.attach t.name m) ts).result with
      | error e' =>
        rw [hr] at h
        cases h
        exact ih (fun u hu => hts (List.mem_cons_of_mem _ hu)) hr
      | ok ms =>
        rw [hr] at h
        cases h

/-- A generation that fails says why, and it is so. -/
theorem grounds_of_generate {e : ComposeError} (h : (generate o program parts).result = .error e) :
    e.Grounds o program (generate o program parts).parts := by
  unfold generate at h ⊢
  cases horder : program.compositeOrder with
  | error e' =>
    rw [horder] at h
    cases h
    exact .inl horder
  | ok order =>
    have hfirst := Program.compositeOrder_childrenFirst horder
    simp only [horder] at h ⊢
    cases hr : (generateTasks o program parts order).result with
    | error e' =>
      rw [hr] at h
      cases h
      exact grounds_of_generateTasks
        (fun t ht => Program.mem_of_task? (hfirst.known t ht)) hr
    | ok ms =>
      rw [hr] at h
      cases h

end

end TaskLoom
