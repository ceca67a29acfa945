import TaskLoom.Proofs.Hdl.Origin

/-!
# Why a source is refused

Items cannot be added to an empty module if one of them has no name or the name of an earlier one
(`BuildError.grounds_of_addAll`).  `SourceError.Grounds text e`: what the failure `e` says of the
source is so, at one of its modules; for example, the module declares the name twice.

Main statement: `Source.grounds_of_parse`.
-/

namespace TaskLoom

namespace Module

variable {m m' : Module} {items xs ys : List Item} {e : BuildError}

theorem add_error {i : Item} (h : m.add i = .error e) : ∃ kind n, i.declares? = some (kind, n) ∧
    (n = "" ∧ e = .emptyName m.name kind ∨
      m.declared n = true ∧ ∃ earlier, e = .alreadyDeclared m.name kind n earlier) := by
  unfold add at h
  split at h
  · rename_i kind n hi
    refine ⟨kind, n, hi, ?_⟩
    unfold declare at h
    split at h
    · rename_i hn
      cases h
      exact .inl ⟨by simpa using hn, rfl⟩
    · split at h
      · rename_i earlier hk
        cases h
        exact .inr ⟨by simp [declared, hk], earlier, rfl⟩
      · cases h
  · cases h

/-- The first item that cannot be added, and the module that it cannot be added to. -/
theorem addAll_error (h : m.addAll items = .error e) : ∃ before i after m',
    items = before ++ i :: after ∧ m.addAll before = .ok m' ∧ m'.add i = .error e := by
  induction items generalizing m with
  | nil => cases h
  | cons i items ih =>
    cases hi : m.add i with
    | error e' =>
      simp only [addAll, addUntil, hi] at h
      cases h
      exact ⟨[], i, items, m, rfl, addAll_nil, hi⟩
    | ok m₁ =>
      simp only [addAll, addUntil, hi] at h
      obtain ⟨before, j, after, m', rfl, hbefore, hj⟩ := ih h
      exact ⟨i :: before, j, after, m', rfl, addAll_cons.2 ⟨m₁, hi, hbefore⟩, hj⟩

theorem addAll_append_of_ok (h : m.addAll xs = .ok m') :
    m.addAll (xs ++ ys) = m'.addAll ys := by
  induction xs generalizing m with
  | nil =>
    cases h
    rfl
  | cons x xs ih =>
    obtain ⟨m₁, hx, hxs⟩ := addAll_cons.1 h
    rw [← ih hxs, List.cons_append]
    simp only [addAll, addUntil, hx]

end Module

/-- What the failure says of the names that a module declares, in order, is so. -/
def BuildError.Grounds (module : String) (names : List String) : BuildError → Prop
  | .emptyName m _ => m = module ∧ "" ∈ names
  | .alreadyDeclared m _ n _ => m = module ∧ ∃ before after, names = before ++ n :: after ∧
      n ∈ before

namespace BuildError

variable {module : String} {e : BuildError}

theorem Grounds.append {names : List String} (h : e.Grounds module names) (rest : List String) :
    e.Grounds module (names ++ rest) := by
  cases e with
  | emptyName m kind => exact ⟨h.1, List.mem_append_left _ h.2⟩
  | alreadyDeclared m kind n earlier =>
    obtain ⟨hm, before, after, rfl, hn⟩ := h
    exact ⟨hm, before, after ++ rest, by simp, hn⟩

theorem grounds_of_addAll {items : List Item}
    (h : (Module.new module).addAll items = .error e) :
    e.Grounds module (namesOf items) := by
  obtain ⟨before, i, after, m', rfl, hbefore, hi⟩ := Module.addAll_error h
  have hname : m'.name = module := Module.name_of_addAll hbefore
  have hnames (kind : DeclKind) (n : String) (hd : i.declares? = some (kind, n)) :
      namesOf (before ++ i :: after) = namesOf before ++ n :: namesOf after := by
    rw [namesOf_append]
    simp [namesOf, Item.name?, hd]
  obtain ⟨kind, n, hd, ⟨rfl, rfl⟩ | ⟨hdeclared, earlier, rfl⟩⟩ := Module.add_error hi
  · exact ⟨hname, by simp [hnames kind _ hd]⟩
  · refine ⟨hname, namesOf before, namesOf after, hnames kind n hd, ?_⟩
    -- the empty module declares nothing
    rcases (Module.declared_addAll hbefore).1 hdeclared with hempty | hn
    · cases hempty
    · exact hn

end BuildError

namespace Source

/-- The names that a module declares, its ports first. -/
def Body.names (b : Body) : List String := b.ports.map PortDecl.name ++ b.params.map Param.name

section
variable {m : Module} {e : SourceError}

theorem addPorts_error {ds : List PortDecl} (h : addPorts m ds = .error e) :
    (∃ d ∈ ds, d.type? = none ∧ e = .noDirection m.name d.name) ∨
    ∃ (ps : List Port) (rest : List PortDecl) (err : BuildError),
      ds = ps.map PortDecl.typed ++ rest ∧ m.addAll (ps.map .port) = .error err ∧
        e = .build err := by
  induction ds generalizing m with
  | nil => cases h
  | cons d ds ih =>
    rw [addPorts] at h
    split at h
    · rename_i hnone
      cases h
      exact .inl ⟨d, List.mem_cons_self, hnone, rfl⟩
    · rename_i direction range htype
      have hd : d = PortDecl.typed ⟨d.name, direction, range⟩ := by rw [PortDecl.typed, ← htype]
      split at h
      · rename_i m₁ hadd
        rcases ih h with ⟨d', hd', hnone, rfl⟩ | ⟨ps, rest, err, rfl, herr, rfl⟩
        · refine .inl ⟨d', List.mem_cons_of_mem _ hd', hnone, ?_⟩
          rw [(Module.add_ok hadd).1]
          rfl
        · refine .inr ⟨⟨d.name, direction, range⟩ :: ps, rest, err, ?_, ?_, rfl⟩
          · rw [List.map_cons, List.cons_append, ← hd]
          · simpa only [List.map_cons, Module.addAll, Module.addUntil, hadd] using herr
      · rename_i err herr
        cases h
        refine .inr ⟨[⟨d.name, direction, range⟩], ds, err, ?_, ?_, rfl⟩
        · rw [List.map_singleton, ← hd]
          rfl
        · simp only [List.map_singleton, Module.addAll, Module.addUntil, herr]

theorem names_typed (ps : List Port) :
    (ps.map PortDecl.typed).map PortDecl.name = ps.map Port.name := by
  rw [List.map_map]
  rfl

/-- A module of a source cannot be made if a port has no direction, or if the names of its
declarations clash. -/
theorem toModule_error {name verbatim : String} {b : Body}
    (h : toModule name verbatim b = .error e) :
    (∃ d ∈ b.ports, d.type? = none ∧ e = .noDirection name d.name) ∨
    ∃ err : BuildError, err.Grounds name b.names ∧ e = .build err := by
  unfold toModule at h
  simp only [bind, Except.bind] at h
  cases hports : addPorts (.new name) b.ports with
  | error e' =>
    rw [hports] at h
    cases h
    rcases addPorts_error hports with hdirection | ⟨ps, rest, err, hps, herr, rfl⟩
    · exact .inl hdirection
    · have hgrounds := BuildError.grounds_of_addAll herr
      rw [namesOf_map_port, ← names_typed] at hgrounds
      refine .inr ⟨err, ?_, rfl⟩
      rw [Body.names, hps, List.map_append, List.append_assoc]
      exact hgrounds.append _
  | ok m₁ =>
    obtain ⟨ps, hps, hadd⟩ := addPorts_ok hports
    rw [hports] at h
    cases hparams : m₁.addAll (b.params.map .param) with
    | ok m₂ =>
      simp only [hparams, Except.mapError] at h
      cases h
    | error err =>
      simp only [hparams, Except.mapError] at h
      cases h
      rw [← Module.addAll_append_of_ok hadd] at hparams
      have hgrounds := BuildError.grounds_of_addAll hparams
      rw [namesOf_append, namesOf_map_port, namesOf_map_param, ← names_typed, ← hps] at hgrounds
      exact .inr ⟨err, hgrounds, rfl⟩

end

/-- A source without comments, attributes and directives. -/
def cleanOf (text : String) : List UInt8 := strip (Text.bytes text)

/-- The tokens of the source behind a word that begins a module. -/
def ModuleAt (text : String) (ts : List Token) : Prop :=
  ∃ t, beginsModule t = true ∧ t :: ts <:+ tokens (cleanOf text)

end Source

/-- What the failure says of the source is so, at one of its modules. -/
def SourceError.Grounds (text : String) : SourceError → Prop
  | .at line what => ∃ ts s, Source.ModuleAt text ts ∧
      Source.moduleParts (Source.cleanOf text) ts = .error s ∧ s.what = what ∧
        Source.lineOf (Source.cleanOf text) s.rest = line
  | .noDirection name port => ∃ ts b rest, Source.ModuleAt text ts ∧
      Source.moduleParts (Source.cleanOf text) ts = .ok ((name, b), rest) ∧
        ⟨port, none⟩ ∈ b.ports
  | .build e => ∃ ts name b rest, Source.ModuleAt text ts ∧
      Source.moduleParts (Source.cleanOf text) ts = .ok ((name, b), rest) ∧
        e.kind = .namingCollision ∧ e.Grounds name b.names

namespace Source

section
variable {text : String} {e : SourceError}

/-- The names that a module declares are not empty. -/
theorem names_ne_empty {name : String} {b : Body} {ts rest : List Token}
    (hts : ts <:+ tokens (cleanOf text))
    (h : moduleParts (cleanOf text) ts = .ok ((name, b), rest)) : "" ∉ b.names := by
  obtain ⟨-, hports, hparams, -⟩ := has_moduleParts hts h
  have hempty : ¬ HasName (cleanOf text) "" := fun hname =>
    absurd hname.isName.name (by decide)
  intro hmem
  rcases List.mem_append.1 hmem with hmem | hmem
  · obtain ⟨d, hd, hname⟩ := List.mem_map.1 hmem
    exact hempty (hname ▸ (hports d hd).name)
  · obtain ⟨p, hp, hname⟩ := List.mem_map.1 hmem
    exact hempty (hname ▸ (hparams p hp).name)

theorem grounds_of_modulesFrom {src : List UInt8} {fuel : Nat} {ts : List Token}
    (hts : ts <:+ tokens (cleanOf text))
    (h : modulesFrom src (cleanOf text) fuel ts = .error e) : e.Grounds text := by
  induction fuel generalizing ts with
  | zero => cases h
  | succ fuel ih =>
    cases ts with
    | nil => cases h
    | cons t ts =>
      have hts' := (List.suffix_cons t ts).trans hts
      cases hbegins : beginsModule t with
      | false =>
        rw [modulesFrom_skip hbegins] at h
        exact ih hts' h
      | true =>
        have hhere : ModuleAt text ts := ⟨t, hbegins, hts⟩
        have hword : (t.text == "module" || t.text == "macromodule") = true := hbegins
        rw [modulesFrom, if_pos hword] at h
        simp only [bind, Except.bind] at h
        cases hparts : moduleParts (cleanOf text) ts with
        | error s =>
          simp only [hparts, Except.mapError] at h
          cases h
          exact ⟨ts, s, hhere, hparts, rfl, rfl⟩
        | ok r =>
          obtain ⟨⟨name, b⟩, rest⟩ := r
          simp only [hparts, Except.mapError] at h
          split at h
          · rename_i e' hmodule
            cases h
            rcases toModule_error hmodule with ⟨⟨port, type⟩, hd, rfl, rfl⟩ | ⟨err, hgrounds, rfl⟩
            · exact ⟨ts, b, rest, hhere, hparts, hd⟩
            · refine ⟨ts, name, b, rest, hhere, hparts, ?_, hgrounds⟩
              cases err with
              | emptyName => exact absurd hgrounds.2 (names_ne_empty hts' hparts)
              | alreadyDeclared => rfl
          · split at h
            · rename_i e' hrest
              cases h
              exact ih ((has_moduleParts hts' hparts).2.2.2.trans hts') hrest
            · cases h

/-- A source that cannot be read is refused for what is wrong with one of its modules. -/
theorem grounds_of_parse (h : parse text = .error e) : e.Grounds text :=
  grounds_of_modulesFrom (List.suffix_refl _) h

end

end Source

end TaskLoom
