import TaskLoom.Composite.Memory
import TaskLoom.Proofs.Composite.Growth
import TaskLoom.Proofs.Hdl.Scope

/-!
# Steps within scope

Whatever a composite module refers to should be declared before.  There is one exception: the search
for the source of a scalar or of the address of a memory (`parentSignal?`) is content with any
declared name, and the name of a cell is one.  `Misled` describes such an argument.

`Plan.InScope p late d`: everything that the draft `d` refers to is a symbol of its module, apart
from what misled an argument.

`Plan.Scoped p late K b N`: from a draft in scope that has the symbols `K`, the step `b` leads to a
draft in scope, and a result `a` refers to the symbols `N a`.  There is one rule for each way of
putting steps together.
-/

namespace TaskLoom

open Build

/-- The names under which the source of an argument is searched for. -/
def Arg.sources (a : Arg) : List String :=
  a.name :: if a.category.isMmap then [a.name ++ "_offset"] else []

/-- The name of an instance or of the buffer of an internal stream. -/
def CellName (t : Task) (placed : List Instance) (n : String) : Prop :=
  (∃ f ∈ t.fifoTable, f.isExternal = false ∧ flatName f.name = n) ∨ ∃ i ∈ placed, i.name = n

instance (t : Task) (placed : List Instance) (n : String) : Decidable (CellName t placed n) :=
  inferInstanceAs (Decidable (_ ∨ _))

/-- `n` drives an argument, but it is only the name of a cell. -/
structure Misled (t : Task) (placed : List Instance) (m : Module) (n : String) : Prop where
  drives : ∃ i ∈ placed, ∃ a ∈ i.args, a.category.isStream = false ∧ n ∈ a.sources ∧
    .assign (instanceArg i.name a.name ++ "__q0") (.ident n) ∈ m.logics
  cell : ∃ c ∈ m.cells, c.name = n
  named : CellName t placed n

theorem Misled.mono {t : Task} {placed : List Instance} {m m' : Module} {n : String}
    (h : Misled t placed m n) (hl : m.logics ⊆ m'.logics) (hc : m.cells ⊆ m'.cells) :
    Misled t placed m' n := by
  obtain ⟨i, hi, a, ha, hs, hn, hmem⟩ := h.drives
  obtain ⟨c, hcell, hname⟩ := h.cell
  exact ⟨⟨i, hi, a, ha, hs, hn, hl hmem⟩, ⟨c, hc hcell, hname⟩, h.named⟩

/-- The names of the interface that the rest of a module refers to. -/
def outerNames : List String := resetWire :: handshakePorts

namespace Plan

def placed (p : Plan) : List Instance := p.children.map Placement.inst

/-- What is referred to in a draft is there.  Until the adapters are added, which is what `late` is
about, all cells are instances and buffers. -/
structure InScope (p : Plan) (late : Bool) (d : Draft) : Prop where
  uses : ∀ n ∈ d.module.uses, n ∈ d.module.symbols ∨ Misled p.task p.placed d.module n
  cells : late = false → ∀ c ∈ d.module.cells, CellName p.task p.placed c.name
  taps : ∀ tap ∈ d.taps, tap.2.last ∈ d.module.symbols
  channels : ∀ u ∈ d.channelUses, ∀ ch ∈ u.channels, ∀ suffix ∈ (channelSide ch).suffixes,
    channelWire u.arg ch suffix ∈ d.module.symbols
  tallied : d.module.Tallied

/-- A step within scope. -/
def Scoped {α : Type} (p : Plan) (late : Bool) (K : List String) (b : Build α)
    (N : α → List String) : Prop :=
  ∀ d a d', p.InScope late d → K ⊆ d.module.symbols → b d = .ok a d' →
    p.InScope late d' ∧ d.module.symbols ⊆ d'.module.symbols ∧ N a ⊆ d'.module.symbols

variable {p : Plan} {late : Bool}

/-- Items that refer to symbols of the result keep a draft in scope. -/
theorem InScope.addAll {d : Draft} (h : p.InScope late d) {items : List Item} {m' : Module}
    (hm : d.module.addAll items = .ok m')
    (huses : ∀ i ∈ items, ∀ n ∈ i.uses, n ∈ m'.symbols ∨ Misled p.task p.placed m' n)
    (hcells : late = false → ∀ c, .cell c ∈ items → CellName p.task p.placed c.name) :
    p.InScope late { d with module := m' } ∧ d.module.symbols ⊆ m'.symbols := by
  have hm' := Module.addAll_eq hm
  have hsymbols : d.module.symbols ⊆ m'.symbols := fun n hn => by
    rw [hm', Module.mem_symbols_pushAll]
    exact .inl hn
  refine ⟨⟨fun n hn => ?_, fun hlate c hc => ?_, fun tap htap => hsymbols (h.taps tap htap),
    fun u hu ch hch suffix hs => hsymbols (h.channels u hu ch hch suffix hs),
    hm' ▸ h.tallied.pushAll items⟩, hsymbols⟩
  · have hn' : n ∈ (d.module.pushAll items).uses := hm' ▸ hn
    rcases Module.mem_uses_pushAll.1 hn' with hn' | ⟨i, hi, hn'⟩
    · refine (h.uses n hn').imp (hsymbols ·) fun hmis => hmis.mono ?_ fun c hc => ?_
      · show d.module.logics ⊆ m'.logics
        rw [hm', Module.logics_pushAll]
        exact List.subset_append_left _ _
      · show c ∈ m'.cells
        rw [hm', Module.mem_cells_pushAll]
        exact .inl hc
    · exact huses i hi n hn'
  · have hc' : c ∈ (d.module.pushAll items).cells := hm' ▸ hc
    exact (Module.mem_cells_pushAll.1 hc').elim (h.cells hlate c) (hcells hlate c)

namespace Scoped

variable {α β : Type} {b : Build α} {f : α → Build β} {K K' : List String}
  {N N' : α → List String} {M : β → List String}

theorem pure {a : α} (h : N a ⊆ K) : p.Scoped late K (Pure.pure a) N := by
  intro d a' d' hd hK hr
  cases hr
  exact ⟨hd, fun _ h => h, List.Subset.trans h hK⟩

theorem throw {e : WiringError} : p.Scoped late K (MonadExcept.throw e : Build α) N := by
  intro d a d' hd hK hr
  cases hr

theorem bind (h : p.Scoped late K b N) (hf : ∀ a, p.Scoped late (K ++ N a) (f a) M) :
    p.Scoped late K (b >>= f) M := by
  intro d c d' hd hK hr
  obtain ⟨a, d₁, hb, hr⟩ := bind_ok.1 hr
  obtain ⟨hd₁, hsub, hN⟩ := h d a d₁ hd hK hb
  obtain ⟨hd', hsub', hM⟩ := hf a d₁ c d' hd₁
    (List.append_subset.2 ⟨List.Subset.trans hK hsub, hN⟩) hr
  exact ⟨hd', List.Subset.trans hsub hsub', hM⟩

theorem reads_bind {R : α → Prop} (h : b.Reads R) (hf : ∀ a, R a → p.Scoped late K (f a) M) :
    p.Scoped late K (b >>= f) M := by
  intro d c d' hd hK hr
  obtain ⟨a, d₁, hb, hrest⟩ := bind_ok.1 hr
  obtain ⟨rfl, ha⟩ := h d a d₁ hb
  exact hf a ha _ _ _ hd hK hrest

/-- What is read off the draft is there. -/
theorem get_bind {f : Draft → Build β}
    (hf : ∀ d, p.InScope late d → p.Scoped late (K ++ d.module.symbols) (f d) M) :
    p.Scoped late K (get >>= f) M := by
  intro d c d' hd hK hr
  obtain ⟨a, d₁, hget, hr⟩ := bind_ok.1 hr
  cases hget
  exact hf d hd d c d' hd (List.append_subset.2 ⟨hK, fun _ h => h⟩) hr

theorem module_bind {f : Module → Build β}
    (hf : ∀ m : Module, p.Scoped late (K ++ m.symbols) (f m) M) :
    p.Scoped late K (Build.module >>= f) M := by
  unfold Build.module
  rw [bind_assoc]
  exact get_bind fun d _ => by rw [pure_bind]; exact hf d.module

theorem ite {q : Prop} [Decidable q] {b' : Build α} (h : q → p.Scoped late K b N)
    (h' : ¬ q → p.Scoped late K b' N) : p.Scoped late K (if q then b else b') N := by
  split
  · exact h ‹_›
  · exact h' ‹_›

/-- Going on unless there is a reason to fail. -/
theorem guarded {q : Prop} [Decidable q] {e : WiringError} {g : β → Build α}
    (h : p.Scoped late K b N) :
    p.Scoped late K (if q then (MonadExcept.throw e : Build β) >>= g else b) N := by
  refine .ite (fun _ => ?_) fun _ => h
  intro d a d' hd hK hr
  cases hr

theorem mono (h : p.Scoped late K b N) (hK : K ⊆ K') (hN : ∀ a, N' a ⊆ K' ++ N a) :
    p.Scoped late K' b N' := by
  intro d a d' hd hK' hr
  obtain ⟨hd', hsub, hNa⟩ := h d a d' hd (List.Subset.trans hK hK') hr
  exact ⟨hd', hsub, List.Subset.trans (hN a)
    (List.append_subset.2 ⟨List.Subset.trans hK' hsub, hNa⟩)⟩

/-- Steps of which the result does not matter. -/
theorem unit (h : p.Scoped late K b N) : p.Scoped late K b fun _ => [] :=
  h.mono (List.Subset.refl _) fun _ => List.nil_subset _

theorem forM {f : α → Build PUnit} (l : List α) (g : α → List String)
    (h : ∀ a ∈ l, p.Scoped late K (f a) fun _ => g a) :
    p.Scoped late K (l.forM f) fun _ => l.flatMap g := by
  induction l with
  | nil => exact .pure (List.nil_subset _)
  | cons a l ih =>
    refine .bind (h a (by simp)) fun _ => ?_
    refine (ih fun a' ha' => h a' (by simp [ha'])).mono (List.subset_append_left _ _) fun _ => ?_
    rw [List.flatMap_cons]
    grind

theorem add (items : List Item)
    (huses : ∀ i ∈ items, ∀ n ∈ i.uses, n ∈ K ∨ n ∈ symbolsOf items)
    (hcells : late = false → ∀ c, .cell c ∈ items → CellName p.task p.placed c.name) :
    p.Scoped late K (Build.add items) fun _ => symbolsOf items := by
  intro d a d' hd hK hr
  obtain ⟨m', hm', rfl⟩ := add_ok hr
  have hsymbols : symbolsOf items ⊆ m'.symbols := fun n hn => by
    rw [Module.addAll_eq hm', Module.mem_symbols_pushAll]
    exact .inr hn
  have hsub : d.module.symbols ⊆ m'.symbols := fun n hn => by
    rw [Module.addAll_eq hm', Module.mem_symbols_pushAll]
    exact .inl hn
  refine ⟨(hd.addAll hm' (fun i hi n hn => .inl ?_) hcells).1, hsub, hsymbols⟩
  exact (huses i hi n hn).elim (fun h => hsub (hK h)) (hsymbols ·)

/-- Items that refer to nothing. -/
theorem declare {items : List Item} (h : ∀ i ∈ items, i.uses = [] ∧ ∀ c, i ≠ .cell c) :
    p.Scoped late K (Build.add items) fun _ => symbolsOf items :=
  .add _ (fun i hi n hn => by rw [(h i hi).1] at hn; cases hn) fun _ c hc => ((h _ hc).2 c rfl).elim

theorem ports (ps : List Port) :
    p.Scoped late K (Build.add (ps.map .port)) fun _ => ps.map Port.name := by
  refine (declare (K := K) fun i hi => ?_).mono (List.Subset.refl _) fun _ => ?_
  · obtain ⟨q, -, rfl⟩ := List.mem_map.1 hi
    exact ⟨rfl, fun c => by simp⟩
  · rw [symbolsOf_ports]
    exact List.subset_append_right _ _

theorem signals (ss : List Signal) :
    p.Scoped late K (Build.add (ss.map .signal)) fun _ => ss.map Signal.name := by
  refine (declare (K := K) fun i hi => ?_).mono (List.Subset.refl _) fun _ => ?_
  · obtain ⟨q, -, rfl⟩ := List.mem_map.1 hi
    exact ⟨rfl, fun c => by simp⟩
  · rw [symbolsOf_signals]
    exact List.subset_append_right _ _

theorem logics (ls : List Logic) (h : ∀ l ∈ ls, l.names ⊆ K) :
    p.Scoped late K (Build.add (ls.map .logic)) fun _ => [] := by
  refine (add _ (fun i hi n hn => .inl ?_) fun _ c hc => ?_).unit
  · obtain ⟨l, hl, rfl⟩ := List.mem_map.1 hi
    exact h l hl hn
  · obtain ⟨l, -, he⟩ := List.mem_map.1 hc
    cases he

theorem cell {c : Cell} (h : c.names ⊆ K)
    (hname : late = false → CellName p.task p.placed c.name) :
    p.Scoped late K (Build.add [.cell c]) fun _ => [] := by
  refine (add _ (fun i hi n hn => .inl ?_) fun hlate c' hc => ?_).unit
  · rw [List.mem_singleton.1 hi] at hn
    exact h hn
  · cases List.mem_singleton.1 hc
    exact hname hlate

theorem pipeline {q : Pipeline} {seed : Expr} (h : seed.names ⊆ K) :
    p.Scoped late K (Build.pipeline q seed) fun _ => q.stageNames := by
  refine (add (q.items seed) (fun i hi n hn => ?_) fun _ c hc => ?_).mono
    (List.Subset.refl K) fun _ => ?_
  · rw [Pipeline.symbolsOf_items]
    exact (q.uses_items seed hi hn).imp (h ·) id
  · rcases List.mem_append.1 hc with hc | hc <;> simp at hc
  · rw [Pipeline.symbolsOf_items]
    exact List.subset_append_right _ _

theorem note (task : String) (level : LogLevel) (message : String)
    (fields : List (String × LogValue)) :
    p.Scoped late K (Build.note task level message fields) fun _ => [] := by
  intro d a d' hd hK hr
  cases hr
  exact ⟨⟨hd.uses, hd.cells, hd.taps, hd.channels, hd.tallied⟩, fun _ h => h, List.nil_subset _⟩

end Scoped

end Plan

end TaskLoom
