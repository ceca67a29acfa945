import TaskLoom.Proofs.Composite.Closed
import TaskLoom.Proofs.Composite.Regeneration
import TaskLoom.Proofs.Simulation.Reordering

/-!
# Monitors leave the design alone

`Module.unmonitored` is a module without its logic for simulators of the written text, which are the
monitors of its streams.  `Build.Monitored b₀ b ms`: the step `b` does what `b₀` does to the draft
without monitors, fails like it, and adds the monitors `ms` on top.  Steps one after the other add
the monitors of both.  A step that neither sees monitors nor adds any is `Build.Blind`.

Of all steps only the one that adds a stream is not blind.  What is generated for one task is read
by the tasks above it, but none of them looks at its logic (`Parts.SameFaces`).

Main statement: with monitors a program has the design that it has without them, with one monitor
more for each internal stream, and no sequence of calls of a simulation tells the two apart
(`monitors_transparent`).
-/

namespace TaskLoom

/-- Logic for simulators of the written text only. -/
def Logic.isMonitor : Logic → Bool
  | .clocked _ simulationOnly => simulationOnly
  | .assign .. => false

namespace Module

def monitors (m : Module) : List Logic := m.logics.filter Logic.isMonitor

def unmonitored (m : Module) : Module := { m with logics := m.logics.filter (!·.isMonitor) }

/-- A module as those see it that do not look at its logic. -/
def face (m : Module) : Module := { m with logics := [] }

end Module

def Design.unmonitored (d : Design) : Design :=
  { d with modules := d.modules.map Module.unmonitored }

def Draft.unmonitored (d : Draft) : Draft := { d with module := d.module.unmonitored }

namespace Module

variable {m : Module}

theorem unmonitored_push (m : Module) {i : Item} (hi : ∀ l, i = .logic l → l.isMonitor = false) :
    (m.push i).unmonitored = m.unmonitored.push i := by
  cases i with
  | logic l => simp [unmonitored, hi l rfl]
  | _ => rfl

theorem unmonitored_push_monitor (m : Module) {l : Logic} (hl : l.isMonitor = true) :
    (m.push (.logic l)).unmonitored = m.unmonitored := by
  simp [unmonitored, hl]

theorem unmonitored_add (m : Module) {i : Item} (hi : ∀ l, i = .logic l → l.isMonitor = false) :
    m.unmonitored.add i = (m.add i).map unmonitored := by
  have hdeclare (kind : DeclKind) (name : String) :
      m.unmonitored.declare kind name = (m.declare kind name).map unmonitored := by
    have hkind : m.unmonitored.kindOf? name = m.kindOf? name := rfl
    unfold declare
    split
    · rfl
    · rw [hkind]
      cases m.kindOf? name <;> rfl
  have hadd {kind : DeclKind} {name : String} (hd : i.declares? = some (kind, name))
      (hplace : ∀ m' : Module, m'.unmonitored.place i = (m'.place i).unmonitored) :
      m.unmonitored.add i = (m.add i).map unmonitored := by
    simp only [add, hd, hdeclare]
    cases m.declare kind name with
    | ok m' => exact congrArg Except.ok (hplace m')
    | error e => rfl
  cases i with
  | logic l => exact congrArg Except.ok (m.unmonitored_push hi).symm
  | _ => exact hadd rfl fun _ => rfl

/-- Items that are no monitors can be added with and without the monitors alike. -/
theorem unmonitored_addAll {items : List Item} (h : ∀ l ∈ logicsOf items, l.isMonitor = false) :
    m.unmonitored.addAll items = (m.addAll items).map unmonitored := by
  have hcons (m : Module) (i : Item) (items : List Item) :
      m.addAll (i :: items) = (m.add i).bind (·.addAll items) := by
    unfold addAll
    rw [addUntil]
    cases m.add i <;> rfl
  induction items generalizing m with
  | nil => rfl
  | cons i items ih =>
    have hi : ∀ l, i = .logic l → l.isMonitor = false := fun l hl =>
      h l (mem_logicsOf.2 (by simp [hl]))
    rw [hcons, hcons, unmonitored_add m hi]
    cases m.add i with
    | error e => rfl
    | ok m₁ =>
      refine ih fun l hl => h l ?_
      exact mem_logicsOf.2 (List.mem_cons_of_mem _ (mem_logicsOf.1 hl))

theorem monitors_of_addAll {m' : Module} {items : List Item} (hm : m.addAll items = .ok m') :
    m'.monitors = m.monitors ++ (logicsOf items).filter Logic.isMonitor := by
  rw [monitors, addAll_eq hm, logics_pushAll, List.filter_append]
  rfl

end Module

/-! ### Steps with and without monitors -/

namespace Build

variable {α β : Type}

/-- The step `b` does what `b₀` does to the draft without monitors, and adds the monitors `ms`. -/
def Monitored (b₀ b : Build α) (ms : List Logic) : Prop := ∀ d,
  match b d with
  | .ok a d' => b₀ d.unmonitored = .ok a d'.unmonitored ∧
      d'.module.monitors = d.module.monitors ++ ms
  | .error e d' => b₀ d.unmonitored = .error e d'.unmonitored

/-- A step that neither sees monitors nor adds any. -/
def Blind (b : Build α) : Prop := Monitored b b []

namespace Monitored

variable {b₀ b : Build α} {ms ns : List Logic}

theorem bind {f₀ f : α → Build β} (h : Monitored b₀ b ms) (hf : ∀ a, Monitored (f₀ a) (f a) ns) :
    Monitored (b₀ >>= f₀) (b >>= f) (ms ++ ns) := by
  intro d
  have hd := h d
  simp only [Bind.bind, EStateM.bind]
  cases hb : b d with
  | error e d₁ =>
    rw [hb] at hd
    rw [hd]
  | ok a d₁ =>
    rw [hb] at hd
    obtain ⟨hd, hms⟩ := hd
    have hd₁ := hf a d₁
    rw [hd]
    dsimp only
    cases hfa : f a d₁ with
    | error e d₂ =>
      rw [hfa] at hd₁
      exact hd₁
    | ok c d₂ =>
      rw [hfa] at hd₁
      exact ⟨hd₁.1, by rw [hd₁.2, hms, List.append_assoc]⟩

/-- Whatever is blind can follow. -/
theorem bind_blind {f : α → Build β} (h : Monitored b₀ b ms) (hf : ∀ a, Monitored (f a) (f a) []) :
    Monitored (b₀ >>= f) (b >>= f) ms := by
  have hall := h.bind hf
  rwa [List.append_nil] at hall

/-- The steps of a loop add their monitors in order. -/
theorem forM {γ : Type} {f₀ f : γ → Build PUnit} {g : γ → List Logic} (l : List γ)
    (h : ∀ a ∈ l, Monitored (f₀ a) (f a) (g a)) :
    Monitored (l.forM f₀) (l.forM f) (l.flatMap g) := by
  induction l with
  | nil => exact fun d => ⟨rfl, (List.append_nil _).symm⟩
  | cons a l ih => exact (h a (by simp)).bind fun _ => ih fun b hb => h b (by simp [hb])

theorem of_addAll {items items₀ : List Item} (hms : (logicsOf items).filter Logic.isMonitor = ms)
    (h : ∀ m : Module, m.unmonitored.addAll items₀ = (m.addAll items).map Module.unmonitored) :
    Monitored (Build.add items₀) (Build.add items) ms := by
  intro d
  have hd : d.unmonitored.module.addAll items₀ = (d.module.addAll items).map Module.unmonitored :=
    h d.module
  cases hm : d.module.addAll items with
  | error e =>
    rw [hm] at hd
    rw [add_of_error hm]
    exact add_of_error hd
  | ok m =>
    rw [hm] at hd
    rw [add_of_addAll hm]
    exact ⟨add_of_addAll hd, by rw [Module.monitors_of_addAll hm, hms]⟩

end Monitored

namespace Blind

variable {b b' : Build α} {f : α → Build β}

theorem pure {a : α} : Blind (Pure.pure a) := fun _ => ⟨rfl, (List.append_nil _).symm⟩

theorem throw {e : WiringError} : Blind (MonadExcept.throw e : Build α) := fun _ => rfl

theorem bind (h : b.Blind) (hf : ∀ a, (f a).Blind) : (b >>= f).Blind := Monitored.bind h hf

theorem bind_monitored {f₀ : α → Build β} {ms : List Logic} (h : b.Blind)
    (hf : ∀ a, Monitored (f₀ a) (f a) ms) : Monitored (b >>= f₀) (b >>= f) ms := Monitored.bind h hf

theorem ite {p : Prop} [Decidable p] (h : p → b.Blind) (h' : ¬ p → b'.Blind) :
    (if p then b else b').Blind := by
  split
  · exact h ‹_›
  · exact h' ‹_›

theorem forM {γ : Type} {f : γ → Build PUnit} (l : List γ) (h : ∀ a ∈ l, (f a).Blind) :
    (l.forM f).Blind := by
  have hall := Monitored.forM (g := fun _ => []) l h
  rwa [List.flatMap_eq_nil_iff.2 fun _ _ => rfl] at hall

/-- A step that looks at the draft, but not at the logic of its module. -/
theorem get_bind {f : Draft → Build β} (hf : ∀ d, (f d).Blind)
    (hface : ∀ d, f d.unmonitored = f d) : (get >>= f).Blind := by
  intro d
  have hrun (d : Draft) : (get >>= f) d = f d d := rfl
  rw [hrun, hrun, hface]
  exact hf d d

theorem module_bind {f : Module → Build β} (hf : ∀ m, (f m).Blind)
    (hface : ∀ m, f m.unmonitored = f m) : (Build.module >>= f).Blind :=
  get_bind (fun d => hf d.module) fun d => hface d.module

theorem modify {g : Draft → Draft} (hg : ∀ d, g d.unmonitored = (g d).unmonitored)
    (hmodule : ∀ d, (g d).module = d.module) : (modify g : Build Unit).Blind := fun d =>
  ⟨congrArg (EStateM.Result.ok ()) (hg d), by rw [hmodule, List.append_nil]⟩

theorem add {items : List Item} (h : ∀ l ∈ logicsOf items, l.isMonitor = false) :
    (Build.add items).Blind :=
  .of_addAll (List.filter_eq_nil_iff.2 fun l hl => by simp [h l hl])
    fun _ => Module.unmonitored_addAll h

theorem note (task : String) (level : LogLevel) (message : String)
    (fields : List (String × LogValue)) : (Build.note task level message fields).Blind :=
  modify (fun _ => rfl) fun _ => rfl

theorem require (e : Except NoSuchPort α) : (Build.require e).Blind := by
  cases e with
  | ok a => exact .pure
  | error e => exact .throw

theorem widthOf (module : String) (p : Port) : (Build.widthOf module p).Blind := by
  unfold Build.widthOf
  split
  · exact .pure
  · exact .throw

theorem signals (ss : List Signal) : (Build.add (ss.map .signal)).Blind := .add (by simp)

theorem cell (c : Cell) : (Build.add [.cell c]).Blind :=
  .add fun _ hl => by simp [logicsOf, Item.logic?] at hl

theorem ports (ps : List Port) : (Build.add (ps.map .port)).Blind :=
  .add (by simp [logicsOf_map_port])

theorem pipeline (t : Pipeline) (seed : Expr) : (Build.pipeline t seed).Blind := by
  refine .add fun l hl => ?_
  rw [Pipeline.items, logicsOf_append, logicsOf_map_signal, logicsOf_map_logic, List.nil_append,
    Pipeline.logic] at hl
  split at hl <;> simp at hl
  · rw [hl]; rfl
  · rcases hl with rfl | rfl <;> rfl

end Blind

end Build

open Build

/-! ### Steps that are blind -/

theorem Placement.blind_portWidth (c : Placement) (port suffix : String) :
    (c.portWidth port suffix).Blind := .bind (.require _) fun _ => .widthOf _ _

theorem blind_requireHandshake (m : Module) (names : List String) :
    (requireHandshake m names).Blind := by
  induction names with
  | nil => exact .pure
  | cons n names ih => exact .ite (fun _ => .throw) fun _ => ih

theorem Fifo.blind_checkSides (f : Fifo) : f.checkSides.Blind := by
  unfold Fifo.checkSides
  refine .ite (fun _ => .ite (fun _ => .throw) fun _ => .pure) fun _ => ?_
  exact .ite (fun _ => .throw) fun _ => .ite (fun _ => .throw) fun _ => .pure

theorem blind_connectExternal (f : Fifo) : (connectExternal f).Blind := by
  refine .module_bind (fun m => ?_) fun _ => rfl
  refine .bind (.require _) fun data => .bind (.require _) fun flag => ?_
  refine .bind (.require _) fun enable => .add fun l hl => ?_
  simp only [logicsOf, Item.logic?, List.filterMap_cons, List.filterMap_nil, List.mem_cons,
    List.not_mem_nil, or_false] at hl
  rcases hl with rfl | rfl | rfl
  · split <;> rfl
  · rfl
  · rfl

theorem blind_bindStream (c : Placement) (a : Arg) (suffixes : List String) :
    (bindStream c a suffixes).Blind := by
  induction suffixes with
  | nil => exact .pure
  | cons suffix suffixes ih => exact .bind (.require _) fun q => .bind ih fun bound => .pure

theorem blind_requireControls (c : Placement) (ports : List String) :
    (requireControls c ports).Blind := by
  induction ports with
  | nil => exact .pure
  | cons port ports ih => exact .ite (fun _ => .throw) fun _ => ih

theorem blind_startChild (level : Nat) (c : Placement) : (startChild level c).Blind := by
  refine .ite (fun _ => .bind ?_ fun _ => .pure) fun _ => ?_
  · exact .add (by simp [logicsOf, Item.logic?, Logic.isMonitor])
  rw [map_eq_pure_bind]
  refine .bind ?_ fun _ => .pure
  refine .bind (blind_requireControls c _) fun _ => .bind (.signals _) fun _ => ?_
  refine .bind (.pipeline _ _) fun _ => .bind (.pipeline _ _) fun _ => ?_
  refine .bind (.pipeline _ _) fun _ => .bind (.add ?_) fun _ => .pure
  simp [handshakeLogic, Logic.isMonitor]

namespace Plan

variable (p : Plan)

theorem blind_addInterface (name : String) (c : Category) (width : Int) :
    (p.addInterface name c width).Blind := by
  refine .bind ?_ fun ps => .ports ps
  unfold interfacePorts
  cases c <;> first | exact .pure | exact .throw

theorem blind_deriveArg (c : Placement) (a : Arg) : (p.deriveArg c a).Blind := by
  refine .module_bind (fun m => .ite (fun _ => .pure) fun _ => ?_) fun _ => rfl
  refine .ite (fun _ => ?_) fun _ => .ite (fun _ => ?_) fun _ => p.blind_addInterface _ _ _
  · split
    · exact .pure
    · refine .ite (fun _ => ?_) fun _ => .pure
      exact .bind (c.blind_portWidth _ _) fun w => p.blind_addInterface _ _ _
  · exact .bind (c.blind_portWidth _ _) fun w => p.blind_addInterface _ _ _

theorem blind_declareInterface : p.declareInterface.Blind := by
  have hrest : Blind (Build.module >>= fun m => requireHandshake m handshakePorts >>= fun _ =>
      Build.add resetItems) := by
    refine .module_bind (fun m => .bind (blind_requireHandshake m _) fun _ => .add ?_) fun _ => rfl
    simp [resetItems, logicsOf, Item.logic?, Logic.isMonitor]
  unfold declareInterface
  split
  · refine .bind (.bind (.ports _) fun _ => .add ?_) fun _ => hrest
    simp [logicsOf_map_param]
  · refine .bind (.bind (.ports _) fun _ => .ite (fun _ => ?_) fun _ => ?_) fun _ => hrest
    · exact .forM _ fun c _ => .forM _ fun a _ => p.blind_deriveArg c a
    · exact .forM _ fun q _ => p.blind_addInterface _ _ _

theorem blind_declareControl (level : Nat) : (declareControl level).Blind :=
  .bind (.signals [_, _]) fun _ => .bind (.pipeline _ _) fun _ => .pipeline _ _

theorem blind_streamWidth (f : Fifo) : (p.streamWidth f).Blind := by
  unfold streamWidth
  simp only
  split
  · exact .throw
  · split
    · exact .throw
    · exact Placement.blind_portWidth _ _ _

theorem blind_argSource (c : Placement) (a : Arg) : (p.argSource c a).Blind := by
  unfold argSource
  split
  · exact .pure
  · refine .module_bind (fun m => ?_) fun _ => rfl
    split
    · exact .throw
    · refine .ite (fun _ => .pure) fun _ => .bind (.module_bind (fun m => ?_) fun _ => rfl)
        fun _ => .pure
      split
      · exact .pure
      · split
        · exact .pure
        · exact c.blind_portWidth _ _

theorem blind_delayArg (c : Placement) (a : Arg) : (p.delayArg c a).Blind := by
  unfold delayArg
  refine .ite (fun _ => .bind .throw fun _ => ?_) fun _ => ?_
  all_goals
    refine .ite (fun _ => .pure) fun _ => .bind (p.blind_argSource c a) fun s => ?_
    refine .bind (.pipeline _ _) fun _ => ?_
    exact .bind (.modify (fun _ => rfl) fun _ => rfl) fun _ => .pure

theorem blind_delayArgs (c : Placement) (as : List Arg) : (p.delayArgs c as).Blind := by
  induction as with
  | nil => exact .pure
  | cons a as ih => exact .bind (p.blind_delayArg c a) fun _ => .bind ih fun _ => .pure

theorem blind_dataWidth (c : Placement) (a : Arg) : (p.dataWidth c a).Blind := by
  unfold dataWidth
  split
  · exact .pure
  · refine .ite (fun _ => ?_) fun _ => c.blind_portWidth _ _
    split
    · exact .pure
    · exact .throw

theorem blind_declareBus (arg : String) (width : Int) : (p.declareBus arg width).Blind := by
  refine .add fun l hl => ?_
  simp [mem_logicsOf] at hl

theorem blind_bindBus (c : Placement) (a : Arg) (tap : Expr) : (p.bindBus c a tap).Blind := by
  refine .bind (p.blind_dataWidth c a) fun w => .bind (p.blind_declareBus _ _) fun _ => ?_
  split
  · exact .throw
  · exact .ite (fun _ => .bind (.note _ _ _ _) fun _ => .pure) fun _ => .pure

theorem blind_bindChannels (c : Placement) (a : Arg) (tap : Expr) :
    (p.bindChannels c a tap).Blind := by
  refine .bind (p.blind_dataWidth c a) fun w => .bind (.add fun l hl => ?_) fun _ => ?_
  · rw [mem_logicsOf] at hl
    obtain ⟨channel, -, hl⟩ := List.mem_flatMap.1 hl
    obtain ⟨suffix, -, he⟩ := List.mem_map.1 hl
    split at he <;> cases he
  · refine .ite (fun _ => .bind .throw fun _ => ?_) fun _ => ?_
    all_goals
      exact .bind (.note _ _ _ _) fun _ =>
        .bind (.modify (fun _ => rfl) fun _ => rfl) fun _ => .pure

theorem blind_bindArg (c : Placement) (a : Arg) (tap : Expr) : (p.bindArg c a tap).Blind := by
  unfold bindArg
  split
  · exact .bind (.require _) fun _ => .pure
  · exact blind_bindStream c a _
  · exact blind_bindStream c a _
  · exact p.blind_bindBus c a tap
  · exact p.blind_bindChannels c a tap
  · exact .throw

theorem blind_bindArgs (c : Placement) (taps : List (String × Pipeline)) (as : List Arg) :
    (p.bindArgs c taps as).Blind := by
  induction as with
  | nil => exact .pure
  | cons a as ih => exact .bind (p.blind_bindArg c a _) fun _ => .bind ih fun _ => .pure

theorem blind_addChild (c : Placement) : (p.addChild c).Blind := by
  rw [p.addChild_eq c]
  refine .bind (.pipeline _ _) fun _ => .bind (p.blind_delayArgs c _) fun taps => ?_
  refine .bind (blind_startChild _ c) fun _ => .bind ?_ fun _ => .pure
  exact .bind (p.blind_bindArgs c taps _) fun _ => .cell _

theorem blind_addChildren (cs : List Placement) : (p.addChildren cs).Blind := by
  induction cs with
  | nil => exact .pure
  | cons c cs ih => exact .bind (p.blind_addChild c) fun _ => .bind ih fun _ => .pure

theorem blind_back (finished : List Pipeline) : (p.back finished).Blind := by
  have hadapters : p.addAdapters.Blind := by
    refine .ite (fun _ => .get_bind (fun d => .forM _ fun u _ => ?_) fun _ => rfl) fun _ => .pure
    refine .bind (p.blind_declareBus _ _) fun _ => .get_bind (fun d => .cell _) fun _ => rfl
  refine .bind hadapters fun _ => .bind (.add ?_) fun _ => .note _ _ _ _
  simp [controlLogic, Logic.isMonitor]

end Plan

/-! ### Modules at hand that differ in their logic -/

/-- Modules that differ in their logic at most. -/
theorem Module.eq_of_face {m m₀ : Module} (h : m₀.face = m.face) :
    m₀ = { m with logics := m₀.logics } :=
  calc m₀ = { m₀.face with logics := m₀.logics } := rfl
    _ = { m.face with logics := m₀.logics } := by rw [h]

/-- Two stocks of modules that differ in the logic of modules at most. -/
structure Parts.SameFaces (a b : Parts) : Prop where
  skeleton : ∀ n, b.skeleton? n = a.skeleton? n
  module : ∀ n, (b.module? n).map Module.face = (a.module? n).map Module.face

namespace Parts.SameFaces

variable {a b : Parts}

/-- A module is at hand in both stocks or in none. -/
theorem module_cases (h : SameFaces a b) (n : String) : (a.module? n = none ∧ b.module? n = none) ∨
    ∃ m ls, a.module? n = some m ∧ b.module? n = some { m with logics := ls } := by
  have hn := h.module n
  cases ha : a.module? n with
  | none =>
    rw [ha, Option.map_none, Option.map_eq_none_iff] at hn
    exact .inl ⟨rfl, hn⟩
  | some m =>
    rw [ha, Option.map_some, Option.map_eq_some_iff] at hn
    obtain ⟨m₀, hb, hface⟩ := hn
    exact .inr ⟨m, m₀.logics, rfl, by rw [hb, ← Module.eq_of_face hface]⟩

theorem attach (h : SameFaces a b) (task : String) (m : Module) :
    SameFaces (a.attach task m) (b.attach task m.unmonitored) where
  skeleton := h.skeleton
  module n := by
    rw [module?_attach, module?_attach]
    split
    · rfl
    · exact h.module n

end Parts.SameFaces

/-- The same instance with other logic in the module of its task. -/
def Placement.withLogics (c : Placement) (ls : List Logic) : Placement :=
  { c with module := { c.module with logics := ls } }

/-- The placements differ in the logic of the modules at most. -/
def Placement.SameFace (c c₀ : Placement) : Prop := ∃ ls, c₀ = c.withLogics ls

namespace Plan

variable (p : Plan) (parts : Parts) (cs : List Placement)

/-- The plan without monitors, over other modules. -/
def silenced : Plan :=
  { p with options := { p.options with debugMonitors := false }, parts, children := cs }

theorem bindStream_withLogics (c : Placement) (ls : List Logic) (a : Arg) (roles : List String) :
    bindStream (c.withLogics ls) a roles = bindStream c a roles := by
  induction roles with
  | nil => rfl
  | cons role roles ih =>
    unfold bindStream
    rw [ih]
    rfl

theorem requireControls_withLogics (c : Placement) (ls : List Logic) (ports : List String) :
    requireControls (c.withLogics ls) ports = requireControls c ports := by
  induction ports with
  | nil => rfl
  | cons port ports ih =>
    unfold requireControls
    rw [ih]
    rfl

theorem bindArg_silenced (c : Placement) (ls : List Logic) (a : Arg) (tap : Expr) :
    (p.silenced parts cs).bindArg (c.withLogics ls) a tap = p.bindArg c a tap := by
  unfold bindArg
  rw [bindStream_withLogics, bindStream_withLogics]
  rfl

theorem delayArgs_silenced (c : Placement) (ls : List Logic) (as : List Arg) :
    (p.silenced parts cs).delayArgs (c.withLogics ls) as = p.delayArgs c as := by
  induction as with
  | nil => rfl
  | cons a as ih =>
    unfold delayArgs
    rw [ih]
    rfl

theorem bindArgs_silenced (c : Placement) (ls : List Logic) (taps : List (String × Pipeline))
    (as : List Arg) :
    (p.silenced parts cs).bindArgs (c.withLogics ls) taps as = p.bindArgs c taps as := by
  induction as with
  | nil => rfl
  | cons a as ih =>
    unfold bindArgs
    simp only [ih, bindArg_silenced]

theorem addChild_silenced (c : Placement) (ls : List Logic) :
    (p.silenced parts cs).addChild (c.withLogics ls) = p.addChild c := by
  have hstart (level : Nat) : startChild level (c.withLogics ls) = startChild level c := by
    unfold startChild addHandshake
    rw [requireControls_withLogics]
    rfl
  have hcell (taps : List (String × Pipeline)) :
      (p.silenced parts cs).addCell (c.withLogics ls) taps = p.addCell c taps := by
    unfold addCell
    rw [bindArgs_silenced]
    rfl
  rw [addChild_eq, addChild_eq, delayArgs_silenced]
  simp only [hstart, hcell]
  rfl

theorem addChildren_silenced {l l₀ : List Placement} (h : List.Forall₂ Placement.SameFace l l₀) :
    (p.silenced parts cs).addChildren l₀ = p.addChildren l := by
  induction h with
  | nil => rfl
  | cons hc _ ih =>
    obtain ⟨ls, rfl⟩ := hc
    unfold addChildren
    rw [ih, addChild_silenced]

theorem deriveInterface_silenced (h : List.Forall₂ Placement.SameFace p.children cs) :
    (p.silenced parts cs).deriveInterface = p.deriveInterface := by
  have hchildren {l l₀ : List Placement} (h : List.Forall₂ Placement.SameFace l l₀) :
      (l₀.forM fun c => c.inst.args.forM ((p.silenced parts cs).deriveArg c)) =
        l.forM fun c => c.inst.args.forM (p.deriveArg c) := by
    induction h with
    | nil => rfl
    | cons hc _ ih =>
      obtain ⟨ls, rfl⟩ := hc
      rw [List.forM, List.forM, ih]
      rfl
  unfold deriveInterface
  rw [show (p.silenced parts cs).children = cs from rfl, hchildren h]
  rfl

variable {p parts cs}

theorem streamWidth_silenced (h : p.parts.SameFaces parts) (f : Fifo) :
    (p.silenced parts cs).streamWidth f = p.streamWidth f := by
  unfold streamWidth
  simp only [silenced]
  split
  · rfl
  · rename_i inst port _
    rcases h.module_cases inst.task.name with ⟨ha, hb⟩ | ⟨m, ls, ha, hb⟩ <;> rw [ha, hb]
    rfl

/-- The one step that adds a monitor. -/
theorem monitored_addStream (h : p.parts.SameFaces parts) (hon : p.options.debugMonitors = true)
    (f : Fifo) : Monitored ((p.silenced parts cs).addStream f) (p.addStream f)
      (if f.isExternal then [] else [streamMonitor f.name]) := by
  have hmonitor : Monitored (Build.add []) (Build.add [.logic (streamMonitor f.name)])
      [streamMonitor f.name] :=
    .of_addAll rfl fun m => congrArg Except.ok (m.unmonitored_push_monitor rfl).symm
  unfold addStream
  rw [streamWidth_silenced h, hon]
  refine f.blind_checkSides.bind_monitored fun _ => (p.blind_streamWidth f).bind_monitored fun w => ?_
  refine (Blind.signals _).bind_monitored fun _ => ?_
  split
  · exact blind_connectExternal f
  · exact (Blind.cell _).bind_monitored fun _ => hmonitor

theorem monitored_build (h : p.parts.SameFaces parts)
    (hcs : List.Forall₂ Placement.SameFace p.children cs)
    (hon : p.options.debugMonitors = true) :
    Monitored (p.silenced parts cs).build p.build
      (p.task.fifos.flatMap fun f => if f.isExternal then [] else [streamMonitor f.name]) := by
  have hinterface : (p.silenced parts cs).declareInterface = p.declareInterface := by
    have hskeleton : (p.silenced parts cs).parts.skeleton? (p.silenced parts cs).task.name =
        p.parts.skeleton? p.task.name := h.skeleton p.task.name
    unfold declareInterface
    rw [deriveInterface_silenced p parts cs hcs, hskeleton]
  have hchildren : (p.silenced parts cs).addChildren cs = p.addChildren p.children :=
    addChildren_silenced p parts cs hcs
  have hback : (p.silenced parts cs).back = p.back := by
    funext finished
    unfold back
    rw [show (p.silenced parts cs).children.length = p.children.length from hcs.length_eq.symm]
    rfl
  rw [build_eq_front_back, build_eq_front_back, hback]
  refine Monitored.bind_blind ?_ p.blind_back
  unfold front
  rw [hinterface, show (p.silenced parts cs).children = cs from rfl, hchildren]
  refine p.blind_declareInterface.bind_monitored fun _ => ?_
  refine (blind_declareControl _).bind_monitored fun _ => Monitored.bind_blind ?_ fun _ => ?_
  · exact .forM _ fun f _ => monitored_addStream h hon f
  · exact p.blind_addChildren _

end Plan

/-- The options with the choice about monitors replaced. -/
def Options.withMonitors (o : Options) (on : Bool) : Options := { o with debugMonitors := on }

/-- The monitors of the internal streams of a task. -/
def Task.monitors (t : Task) : List Logic :=
  (t.fifos.filter (!·.isExternal)).map fun f => streamMonitor f.name

theorem Task.flatMap_monitors (t : Task) :
    (t.fifos.flatMap fun f => if f.isExternal then [] else [streamMonitor f.name]) =
      t.monitors := by
  unfold Task.monitors
  induction t.fifos with
  | nil => rfl
  | cons f fs ih => cases hf : f.isExternal <;> simp [hf, ih]

section
variable (o : Options) (program : Program) {a b : Parts}

theorem placements_sameFaces (h : a.SameFaces b) (parent : String) (is : List Instance) :
    (∃ e, placements a parent is = .error e ∧ placements b parent is = .error e) ∨
    ∃ cs cs₀, placements a parent is = .ok cs ∧ placements b parent is = .ok cs₀ ∧
      List.Forall₂ Placement.SameFace cs cs₀ := by
  induction is with
  | nil => exact .inr ⟨[], [], rfl, rfl, .nil⟩
  | cons i is ih =>
    unfold placements
    rcases h.module_cases i.task.name with ⟨ha, hb⟩ | ⟨m, ls, ha, hb⟩
    · exact .inl ⟨_, by rw [ha], by rw [hb]⟩
    · rw [ha, hb]
      rcases ih with ⟨e, hea, heb⟩ | ⟨cs, cs₀, hca, hcb, hcs⟩
      · exact .inl ⟨e, by rw [hea]; rfl, by rw [heb]; rfl⟩
      · exact .inr ⟨⟨i, m⟩ :: cs, ⟨i, { m with logics := ls }⟩ :: cs₀, by rw [hca]; rfl,
          by rw [hcb]; rfl, .cons ⟨ls, rfl⟩ hcs⟩

/-- The plans of a task with and without monitors, over modules that differ in their logic. -/
theorem plan_silenced (h : a.SameFaces b) (t : Task) :
    (∃ e, plan (o.withMonitors true) program a t = .error e ∧
      plan (o.withMonitors false) program b t = .error e) ∨
    ∃ p cs, plan (o.withMonitors true) program a t = .ok p ∧
      plan (o.withMonitors false) program b t = .ok (p.silenced b cs) ∧
      p.parts = a ∧ p.task = t ∧ p.options.debugMonitors = true ∧
      List.Forall₂ Placement.SameFace p.children cs := by
  unfold plan
  cases t.isComposite with
  | false => exact .inl ⟨_, rfl, rfl⟩
  | true =>
    cases program.instances t with
    | error e => exact .inl ⟨_, rfl, rfl⟩
    | ok insts =>
      rcases placements_sameFaces h t.name insts with ⟨e, ha, hb⟩ | ⟨cs, cs₀, ha, hb, hcs⟩
      · exact .inl ⟨e, by simp only [ha]; rfl, by simp only [hb]; rfl⟩
      · exact .inr ⟨⟨o.withMonitors true, program, a, t, cs⟩, cs₀, by simp only [ha]; rfl,
          by simp only [hb]; rfl, rfl, rfl, rfl, hcs⟩

/-- One task: without monitors it fails or succeeds as with them, and logs the same. -/
theorem generateTask_silenced (h : a.SameFaces b) (t : Task) :
    generateTask (o.withMonitors false) program b t =
      ((generateTask (o.withMonitors true) program a t).1,
        (generateTask (o.withMonitors true) program a t).2.map Module.unmonitored) ∧
    ∀ m, (generateTask (o.withMonitors true) program a t).2 = .ok m →
      m.name = t.name ∧ m.monitors = t.monitors := by
  unfold generateTask
  rcases plan_silenced o program h t with ⟨e, ha, hb⟩ |
    ⟨p, cs, ha, hb, hparts, rfl, hon, hcs⟩
  · rw [ha, hb]
    exact ⟨rfl, fun m hm => by cases hm⟩
  · rw [ha, hb]
    have hbuild := Plan.monitored_build (hparts ▸ h) hcs hon { module := .new p.task.name }
    have hempty : Draft.unmonitored { module := .new p.task.name } =
        { module := .new p.task.name } := rfl
    rw [hempty, Task.flatMap_monitors] at hbuild
    dsimp only
    cases hr : p.build { module := .new p.task.name } with
    | error e d =>
      rw [hr] at hbuild
      rw [hbuild]
      exact ⟨rfl, fun m hm => by cases hm⟩
    | ok u d =>
      rw [hr] at hbuild
      rw [hbuild.1]
      refine ⟨rfl, fun m hm => ?_⟩
      cases hm
      obtain ⟨items, hitems, -⟩ := p.layout_build _ _ _ hr
      exact ⟨Module.name_of_addAll hitems, hbuild.2⟩

/-- Some tasks, each over the modules of those before it. -/
theorem generateTasks_silenced (h : a.SameFaces b) (ts : List Task) :
    (generateTasks (o.withMonitors false) program b ts).log =
      (generateTasks (o.withMonitors true) program a ts).log ∧
    (generateTasks (o.withMonitors false) program b ts).result =
      (generateTasks (o.withMonitors true) program a ts).result.map
        (List.map Module.unmonitored) ∧
    ∀ ms, (generateTasks (o.withMonitors true) program a ts).result = .ok ms →
      List.Forall₂ (fun t m => m.name = t.name ∧ m.monitors = Task.monitors t) ts ms := by
  induction ts generalizing a b with
  | nil => exact ⟨rfl, rfl, fun ms hms => by cases hms; exact .nil⟩
  | cons t ts ih =>
    obtain ⟨htask, hmonitors⟩ := generateTask_silenced o program h t
    unfold generateTasks
    rw [htask]
    rcases hg : generateTask (o.withMonitors true) program a t with ⟨log, e | m⟩
    · exact ⟨rfl, rfl, fun ms hms => by cases hms⟩
    · obtain ⟨hlog, hresult, hrest⟩ := ih (h.attach t.name m)
      dsimp only [Except.map]
      rw [hlog, hresult]
      refine ⟨rfl, ?_, fun ms hms => ?_⟩
      · cases (generateTasks (o.withMonitors true) program (a.attach t.name m) ts).result <;> rfl
      · cases hr : (generateTasks (o.withMonitors true) program (a.attach t.name m) ts).result with
        | error e =>
          rw [hr] at hms
          cases hms
        | ok ms' =>
          rw [hr] at hms
          cases hms
          exact .cons (hmonitors m (by rw [hg])) (hrest ms' hr)

end

theorem Circuit.ofModule_unmonitored (m : Module) :
    Circuit.ofModule m.unmonitored = Circuit.ofModule m := by
  have hassigns : Circuit.assignsOf m.unmonitored.logics = Circuit.assignsOf m.logics := by
    unfold Circuit.assignsOf Module.unmonitored
    rw [List.filterMap_filter]
    refine List.filterMap_congr fun l _ => ?_
    rcases l with _ | ⟨_, _ | _⟩ <;> rfl
  have hblocks : Circuit.blocksOf m.unmonitored.logics = Circuit.blocksOf m.logics := by
    unfold Circuit.blocksOf Module.unmonitored
    rw [List.filterMap_filter]
    refine List.filterMap_congr fun l _ => ?_
    rcases l with _ | ⟨_, _ | _⟩ <;> rfl
  unfold Circuit.ofModule
  rw [hassigns, hblocks]
  rfl

/-- No simulation tells a module with monitors from the one without them. -/
theorem Module.sights_unmonitored (m : Module) (cs : List Call) :
    m.unmonitored.sights cs = m.sights cs := by
  rw [Module.sights, Module.sights, Simulator.start, Simulator.start, Circuit.ofModule_unmonitored]

/-- With monitors the design of a program is the one without them, and generation fails with the
same error and logs the same.  Apart from its monitors, which are one for each internal stream of
its task, a module is the same in both, and no sequence of calls of a simulation tells them
apart. -/
theorem monitors_transparent (o : Options) (p : Program) (parts : Parts) :
    (generate (o.withMonitors false) p parts).log = (generate (o.withMonitors true) p parts).log ∧
    (generate (o.withMonitors false) p parts).result =
      (generate (o.withMonitors true) p parts).result.map Design.unmonitored ∧
    ∀ d, (generate (o.withMonitors true) p parts).result = .ok d →
      (∃ order, p.compositeOrder = .ok order ∧ List.Forall₂ (fun t m => m.name = t.name ∧
        m.monitors = (t.fifos.filter (!·.isExternal)).map fun f => streamMonitor f.name)
          order d.modules) ∧
      ∀ m ∈ d.modules, ∀ cs, m.unmonitored.sights cs = m.sights cs := by
  have hrefl : parts.SameFaces parts := ⟨fun _ => rfl, fun _ => rfl⟩
  unfold generate
  cases horder : p.compositeOrder with
  | error e => exact ⟨rfl, rfl, fun d hd => by cases hd⟩
  | ok order =>
    obtain ⟨hlog, hresult, hmonitors⟩ := generateTasks_silenced o p hrefl order
    refine ⟨hlog, ?_, fun d hd => ?_⟩
    · simp only [hresult]
      cases (generateTasks (o.withMonitors true) p parts order).result <;> rfl
    · dsimp only at hd
      cases hr : (generateTasks (o.withMonitors true) p parts order).result with
      | error e =>
        rw [hr] at hd
        cases hd
      | ok ms =>
        rw [hr] at hd
        cases hd
        exact ⟨⟨order, rfl, hmonitors ms hr⟩, fun m _ => m.sights_unmonitored⟩

theorem monitors_transparent_buffered : ∃ d,
    (generate (Options.withMonitors {} true) (bufferedProgram "n") bufferedParts).result = .ok d ∧
    (generate (Options.withMonitors {} false) (bufferedProgram "n") bufferedParts).result =
      .ok d.unmonitored ∧
    ∃ m ∈ d.modules, m.monitors = [streamMonitor "q"] ∧
      ∀ cs, m.unmonitored.sights cs = m.sights cs := by
  obtain ⟨-, hresult, hmodules⟩ :=
    monitors_transparent {} (bufferedProgram "n") bufferedParts
  have hok : (generate (Options.withMonitors {} true) (bufferedProgram "n")
      bufferedParts).result.isOk = true := by
    decide +kernel
  cases hd : (generate (Options.withMonitors {} true) (bufferedProgram "n") bufferedParts).result with
  | error e =>
    rw [hd] at hok
    cases hok
  | ok d =>
    rw [hd] at hresult
    obtain ⟨⟨order, horder, hall⟩, hsights⟩ := hmodules d hd
    have htop : (bufferedProgram "n").compositeOrder = .ok [(bufferedProgram "n").taskTable[1]] := by
      with_unfolding_all rfl
    rw [htop] at horder
    cases horder
    obtain ⟨m, ms, ⟨-, hm⟩, -, hdm⟩ := List.forall₂_cons_left_iff.1 hall
    have hmem : m ∈ d.modules := by simp [hdm]
    exact ⟨d, rfl, hresult, m, hmem, hm, hsights m hmem⟩

end TaskLoom
