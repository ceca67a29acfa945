import TaskLoom.Composite.Draft
import TaskLoom.Proofs.Hdl.Wiring

/-!
# Steps on a draft add items

Whatever a step on a draft does, its module only grows.  `Build.Adds b P`: if `b` succeeds, it adds
some items, all of them new, and `P` holds of the module before, the items and the result.  Steps
one after the other add the items of both (`Adds.bind`).

`Build.Wires b P` is `Adds` for steps that follow the discipline `Wired`, with `P` about the items
and the result only.
-/

namespace TaskLoom

namespace Build

variable {α β : Type} {b : Build α} {f : α → Build β}

theorem bind_ok {d d' : Draft} {c : β} :
    (b >>= f) d = .ok c d' ↔ ∃ a d₁, b d = .ok a d₁ ∧ f a d₁ = .ok c d' := by
  simp only [bind, EStateM.bind]
  cases b d with
  | ok a d₁ => exact ⟨fun h => ⟨a, d₁, rfl, h⟩, fun ⟨_, _, he, h⟩ => by cases he; exact h⟩
  | error e d₁ => simp

/-- Two steps fail in the first or in the second one. -/
theorem bind_error {d d' : Draft} {e : WiringError} : (b >>= f) d = .error e d' ↔
    b d = .error e d' ∨ ∃ a d₁, b d = .ok a d₁ ∧ f a d₁ = .error e d' := by
  simp only [bind, EStateM.bind]
  cases b d with
  | ok a d₁ =>
    refine ⟨fun h => .inr ⟨a, d₁, rfl, h⟩, ?_⟩
    rintro (h | ⟨_, _, he, h⟩)
    · cases h
    · cases he
      exact h
  | error e₁ d₁ => simp

/-- If the step succeeds, it adds items that satisfy `P` together with the module before them and
the result. -/
def Adds (b : Build α) (P : Module → List Item → α → Prop) : Prop :=
  ∀ d a d', b d = .ok a d' →
    ∃ items, d.module.addAll items = .ok d'.module ∧ P d.module items a

namespace Adds

variable {P P' : Module → List Item → α → Prop}

/-- The table still says what stands in the regions. -/
theorem tallied (h : b.Adds P) {d d' : Draft} {a : α} (hr : b d = .ok a d')
    (ht : d.module.Tallied) : d'.module.Tallied := by
  obtain ⟨items, hitems, -⟩ := h d a d' hr
  exact Module.addAll_eq hitems ▸ ht.pushAll items

theorem mono (h : b.Adds P) (hP : ∀ m items a, P m items a → P' m items a) : b.Adds P' := by
  intro d a d' hr
  obtain ⟨items, hadd, hp⟩ := h d a d' hr
  exact ⟨items, hadd, hP _ _ _ hp⟩

theorem pure {a : α} (h : ∀ m, P m [] a) : Adds (Pure.pure a) P := by
  intro d a' d' hr
  cases hr
  exact ⟨[], Module.addAll_nil, h _⟩

theorem throw {e : WiringError} : Adds (MonadExcept.throw e : Build α) P := by
  intro d a d' hr
  cases hr

theorem bind {Q : α → Module → List Item → β → Prop} (h : b.Adds P)
    (hf : ∀ a, (f a).Adds (Q a)) :
    (b >>= f).Adds fun m zs c => ∃ xs ys a m', zs = xs ++ ys ∧ m.addAll xs = .ok m' ∧
      P m xs a ∧ Q a m' ys c := by
  intro d c d' hr
  obtain ⟨a, d₁, hb, hr⟩ := bind_ok.1 hr
  obtain ⟨xs, hxs, hp⟩ := h d a d₁ hb
  obtain ⟨ys, hys, hq⟩ := hf a d₁ c d' hr
  exact ⟨xs ++ ys, Module.addAll_append.2 ⟨_, hxs, hys⟩, xs, ys, a, _, rfl, hxs, hp, hq⟩

theorem ite {p : Prop} [Decidable p] {b' : Build α} (h : p → b.Adds P) (h' : ¬ p → b'.Adds P) :
    (if p then b else b').Adds P := by
  split
  · exact h ‹_›
  · exact h' ‹_›

end Adds

/-- A step that adds nothing, with a result that satisfies `R`. -/
def Silent (b : Build α) (R : α → Prop) : Prop := b.Adds fun _ items a => items = [] ∧ R a

namespace Silent

variable {R : α → Prop}

theorem pure {a : α} (h : R a) : Silent (Pure.pure a) R := Adds.pure fun _ => ⟨rfl, h⟩

theorem throw {e : WiringError} : Silent (MonadExcept.throw e : Build α) R := Adds.throw

theorem bind {S : β → Prop} (h : b.Silent R) (hf : ∀ a, R a → (f a).Silent S) :
    (b >>= f).Silent S := by
  intro d c d' hr
  obtain ⟨a, d₁, hb, hr⟩ := bind_ok.1 hr
  obtain ⟨xs, hxs, rfl, ha⟩ := h d a d₁ hb
  obtain ⟨ys, hys, rfl, hc⟩ := hf a ha d₁ c d' hr
  exact ⟨[], Module.addAll_append.2 ⟨_, hxs, hys⟩, rfl, hc⟩

end Silent

/-- A step that leaves the draft as it is, with a result that satisfies `R`. -/
def Reads (b : Build α) (R : α → Prop) : Prop := ∀ d a d', b d = .ok a d' → d' = d ∧ R a

namespace Reads

variable {R : α → Prop}

theorem pure {a : α} (h : R a) : Reads (Pure.pure a) R := by
  intro d a' d' hr
  cases hr
  exact ⟨rfl, h⟩

theorem throw {e : WiringError} : Reads (MonadExcept.throw e : Build α) R := by
  intro d a d' hr
  cases hr

theorem bind {S : β → Prop} (h : b.Reads R) (hf : ∀ a, R a → (f a).Reads S) :
    (b >>= f).Reads S := by
  intro d c d' hr
  obtain ⟨a, d₁, hb, hrest⟩ := bind_ok.1 hr
  obtain ⟨rfl, ha⟩ := h d a d₁ hb
  exact hf a ha _ _ _ hrest

theorem ite {p : Prop} [Decidable p] {b' : Build α} (h : p → b.Reads R) (h' : ¬ p → b'.Reads R) :
    (if p then b else b').Reads R := by
  split
  · exact h ‹_›
  · exact h' ‹_›

theorem silent (h : b.Reads R) : b.Silent R := by
  intro d a d' hr
  obtain ⟨rfl, ha⟩ := h d a d' hr
  exact ⟨[], Module.addAll_nil, rfl, ha⟩

end Reads

/-- A silent step first: the rest decides what is added. -/
theorem Silent.bind_adds {R : α → Prop} {P : Module → List Item → β → Prop} (h : b.Silent R)
    (hf : ∀ a, R a → (f a).Adds P) : (b >>= f).Adds P := by
  intro d c d' hr
  obtain ⟨a, d₁, hb, hr⟩ := bind_ok.1 hr
  obtain ⟨xs, hxs, rfl, ha⟩ := h d a d₁ hb
  have hm : d.module = d₁.module := Except.ok.inj hxs
  rw [hm]
  exact hf a ha d₁ c d' hr

/-! ### The basic steps -/

theorem add_ok {items : List Item} {d d' : Draft} (h : Build.add items d = .ok () d') :
    ∃ m, d.module.addAll items = .ok m ∧ d' = { d with module := m } := by
  obtain ⟨x, d₁, hget, h⟩ := bind_ok.1 h
  cases hget
  cases hm : d.module.addAll items with
  | ok m =>
    rw [hm] at h
    cases h
    exact ⟨m, rfl, rfl⟩
  | error e =>
    rw [hm] at h
    cases h

theorem adds_add (items : List Item) : (Build.add items).Adds fun _ xs _ => xs = items := by
  intro d a d' hr
  obtain ⟨m, hm, rfl⟩ := add_ok hr
  exact ⟨items, hm, rfl⟩

theorem add_of_error {items : List Item} {d : Draft} {e : BuildError}
    (h : d.module.addAll items = .error e) : Build.add items d = .error (.build e) d := by
  have hget : (get : Build Draft) d = .ok d d := rfl
  simp only [Build.add, bind, EStateM.bind, hget, h]
  rfl

theorem add_of_addAll {items : List Item} {d : Draft} {m : Module}
    (h : d.module.addAll items = .ok m) : Build.add items d = .ok () { d with module := m } := by
  refine bind_ok.2 ⟨d, d, rfl, ?_⟩
  rw [h]
  rfl

theorem adds_pipeline (p : Pipeline) (seed : Expr) :
    (Build.pipeline p seed).Adds fun _ xs _ => xs = p.items seed := adds_add _

theorem adds_module : Build.module.Adds fun m xs a => xs = [] ∧ a = m := by
  intro d a d' hr
  cases hr
  exact ⟨[], Module.addAll_nil, rfl, rfl⟩

theorem reads_get : (get : Build Draft).Reads fun _ => True := by
  intro d a d' hr
  cases hr
  exact ⟨rfl, trivial⟩

theorem reads_module : Build.module.Reads fun _ => True := reads_get.bind fun _ _ => .pure trivial

theorem silent_get : (get : Build Draft).Silent fun _ => True := reads_get.silent

theorem silent_module : Build.module.Silent fun _ => True := reads_module.silent

theorem silent_modify {g : Draft → Draft} (hg : ∀ d, (g d).module = d.module) :
    (modify g : Build Unit).Silent fun _ => True := by
  intro d a d' hr
  cases hr
  exact ⟨[], by rw [hg]; exact Module.addAll_nil, rfl, trivial⟩

theorem silent_note (task : String) (level : LogLevel) (message : String)
    (fields : List (String × LogValue)) :
    (Build.note task level message fields).Silent fun _ => True :=
  silent_modify fun _ => rfl

theorem reads_require (e : Except NoSuchPort α) : (Build.require e).Reads fun a => e = .ok a := by
  cases e with
  | ok a => exact .pure rfl
  | error e => exact .throw

theorem silent_require (e : Except NoSuchPort α) : (Build.require e).Silent fun a => e = .ok a :=
  (reads_require e).silent

theorem reads_widthOf (module : String) (p : Port) :
    (Build.widthOf module p).Reads fun _ => True := by
  unfold Build.widthOf
  split
  · exact .pure trivial
  · exact .throw

/-- All items that the step adds satisfy `Q`. -/
def Each (b : Build α) (Q : Item → Prop) : Prop := b.Adds fun _ items _ => ∀ i ∈ items, Q i

namespace Each

variable {Q : Item → Prop}

theorem of_silent {R : α → Prop} (h : b.Silent R) : b.Each Q :=
  Adds.mono h fun _ _ _ h => by simp [h.1]

theorem pure {a : α} : Each (Pure.pure a) Q := .of_silent (.pure trivial (R := fun _ => True))

theorem throw {e : WiringError} : Each (MonadExcept.throw e : Build α) Q := Adds.throw

theorem ite {p : Prop} [Decidable p] {b' : Build α} (h : p → b.Each Q) (h' : ¬ p → b'.Each Q) :
    (if p then b else b').Each Q := Adds.ite h h'

theorem add {items : List Item} (h : ∀ i ∈ items, Q i) : (Build.add items).Each Q :=
  (adds_add items).mono fun _ _ _ he => by rw [he]; exact h

theorem bind (h : b.Each Q) (hf : ∀ a, (f a).Each Q) : (b >>= f).Each Q := by
  refine (Adds.bind h hf).mono ?_
  rintro m _ c ⟨xs, ys, a, m', rfl, -, hx, hy⟩ i hi
  exact (List.mem_append.1 hi).elim (hx i) (hy i)

theorem silent_bind {R : α → Prop} (h : b.Silent R) (hf : ∀ a, (f a).Each Q) :
    (b >>= f).Each Q := h.bind_adds fun a _ => hf a

theorem forM {f : α → Build PUnit} (l : List α) (h : ∀ a ∈ l, (f a).Each Q) :
    (l.forM f).Each Q := by
  induction l with
  | nil => exact .pure
  | cons a l ih => exact .bind (h a (by simp)) fun _ => ih fun b hb => h b (by simp [hb])

end Each

/-- The steps of a loop: each one starts on the draft that those before it leave, and those after it
start on its result. -/
theorem forM_mem {f : α → Build PUnit} {l : List α} {a : α} (ha : a ∈ l) {d d' : Draft}
    (h : l.forM f d = .ok () d') : ∃ before after d₁ d₂, l = before ++ a :: after ∧
      before.forM f d = .ok () d₁ ∧ f a d₁ = .ok () d₂ ∧ after.forM f d₂ = .ok () d' := by
  induction l generalizing d with
  | nil => simp at ha
  | cons b l ih =>
    obtain ⟨⟨⟩, d₁, hb, hl⟩ := bind_ok.1 h
    rcases List.mem_cons.1 ha with rfl | ha
    · exact ⟨[], l, d, d₁, rfl, rfl, hb, hl⟩
    · obtain ⟨before, after, d₂, d₃, rfl, hbefore, hstep, hafter⟩ := ih ha hl
      exact ⟨b :: before, after, d₂, d₃, rfl, bind_ok.2 ⟨(), d₁, hb, hbefore⟩, hstep, hafter⟩

/-- A step that adds no logic. -/
def Declares (b : Build α) : Prop := b.Adds fun _ items _ => logicsOf items = []

namespace Declares

theorem of_silent {R : α → Prop} (h : b.Silent R) : b.Declares :=
  Adds.mono h fun _ _ _ h => by rw [h.1]; rfl

theorem pure {a : α} : Declares (Pure.pure a) := Adds.pure fun _ => rfl

theorem throw {e : WiringError} : Declares (MonadExcept.throw e : Build α) := Adds.throw

theorem ite {p : Prop} [Decidable p] {b' : Build α} (h : p → b.Declares) (h' : ¬ p → b'.Declares) :
    (if p then b else b').Declares := Adds.ite h h'

theorem add {items : List Item} (h : logicsOf items = []) : (Build.add items).Declares :=
  (adds_add items).mono fun _ _ _ he => by rw [he, h]

theorem bind (h : b.Declares) (hf : ∀ a, (f a).Declares) : (b >>= f).Declares := by
  refine (Adds.bind h hf).mono ?_
  rintro m _ c ⟨xs, ys, a, m', rfl, -, hx, hy⟩
  rw [logicsOf_append, hx, hy]
  rfl

theorem silent_bind {R : α → Prop} (h : b.Silent R) (hf : ∀ a, (f a).Declares) :
    (b >>= f).Declares := h.bind_adds fun a _ => hf a

theorem forM {f : α → Build PUnit} (l : List α) (h : ∀ a ∈ l, (f a).Declares) :
    (l.forM f).Declares := by
  induction l with
  | nil => exact .pure
  | cons a l ih => exact .bind (h a (by simp)) fun _ => ih fun b hb => h b (by simp [hb])

end Declares

def portNames (m : Module) : List String := m.ports.map Port.name

/-- A step that follows the discipline, with items and a result that satisfy `P`. -/
def Wires (b : Build α) (P : List Item → α → Prop) : Prop :=
  b.Adds fun m items a => Wired (portNames m) items ∧ P items a

theorem portNames_of_addAll {m m' : Module} {items : List Item} (h : m.addAll items = .ok m') :
    portNames m' = portNames m ++ portNamesOf items := by
  rw [Module.addAll_eq h, portNames, Module.ports_pushAll, List.map_append]
  rfl

namespace Wires

variable {P P' : List Item → α → Prop}

theorem mono (h : b.Wires P) (hP : ∀ items a, P items a → P' items a) : b.Wires P' :=
  Adds.mono h fun _ items a h => ⟨h.1, hP items a h.2⟩

theorem bind {Q : α → List Item → β → Prop} (h : b.Wires P) (hf : ∀ a, (f a).Wires (Q a)) :
    (b >>= f).Wires fun zs c => ∃ xs ys a, zs = xs ++ ys ∧ P xs a ∧ Q a ys c := by
  refine (Adds.bind h hf).mono ?_
  rintro m _ c ⟨xs, ys, a, m', rfl, hxs, ⟨hw, hp⟩, hw', hq⟩
  rw [portNames_of_addAll hxs] at hw'
  exact ⟨hw.append hw', xs, ys, a, rfl, hp, hq⟩

theorem of_silent {R : α → Prop} (h : b.Silent R) (hP : ∀ a, R a → P [] a) : b.Wires P :=
  Adds.mono h fun _ _ a h => by
    obtain ⟨rfl, ha⟩ := h
    exact ⟨.nil, hP a ha⟩

theorem pure {a : α} (h : P [] a) : Wires (Pure.pure a) P := .of_silent (.pure h) fun _ h => h

theorem throw {e : WiringError} : Wires (MonadExcept.throw e : Build α) P := Adds.throw

theorem ite {p : Prop} [Decidable p] {b' : Build α} (h : p → b.Wires P) (h' : ¬ p → b'.Wires P) :
    (if p then b else b').Wires P := Adds.ite h h'

theorem silent_bind {R : α → Prop} {Q : List Item → β → Prop} (h : b.Silent R)
    (hf : ∀ a, R a → (f a).Wires Q) : (b >>= f).Wires Q := h.bind_adds hf

theorem add {items : List Item} (h : ∀ ports, Wired ports items) :
    (Build.add items).Wires fun xs _ => xs = items :=
  (adds_add items).mono fun m xs _ he => by subst he; exact ⟨h _, rfl⟩

theorem pipeline (p : Pipeline) (seed : Expr) :
    (Build.pipeline p seed).Wires fun xs _ => xs = p.items seed := .add (p.wired seed)

/-- Steps of which only the discipline matters. -/
theorem seq (h : b.Wires fun _ _ => True) (hf : ∀ a, (f a).Wires fun _ _ => True) :
    (b >>= f).Wires fun _ _ => True := (h.bind hf).mono fun _ _ _ => trivial

theorem of_declares (h : b.Declares) : b.Wires fun _ _ => True :=
  Adds.mono h fun _ _ _ h => ⟨.of_no_logic h, trivial⟩

theorem forM {f : α → Build PUnit} (l : List α) (h : ∀ a ∈ l, (f a).Wires fun _ _ => True) :
    (l.forM f).Wires fun _ _ => True := by
  induction l with
  | nil => exact .pure trivial
  | cons a l ih => exact .seq (h a (by simp)) fun _ => ih fun b hb => h b (by simp [hb])

end Wires

end Build

theorem Placement.reads_portWidth (c : Placement) (port suffix : String) :
    (c.portWidth port suffix).Reads fun _ => True :=
  (Build.reads_require _).bind fun _ _ => Build.reads_widthOf _ _

theorem Placement.silent_portWidth (c : Placement) (port suffix : String) :
    (c.portWidth port suffix).Silent fun _ => True := (c.reads_portWidth port suffix).silent

end TaskLoom
