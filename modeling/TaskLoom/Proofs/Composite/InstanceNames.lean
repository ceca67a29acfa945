import Mathlib.Data.List.Chain
import TaskLoom.Proofs.Composite.Furnishing
import TaskLoom.Proofs.Hdl.Scope
import TaskLoom.Proofs.Simulation.DelayLine

/-!
# The names of instances

The name of an instance is that of its task and its number.  Its signals and pipelines have that
name, two underscores and a role; the stages of a pipeline add two underscores, a letter and a
number.

Numbers are read off the end (`append_inj_of_last`), so a task and a number are determined by the
name of an instance, and a pipeline and a stage by the name of the stage.  If a task is `Spaced`, so
are its instances, and then the name of the instance ends at the first gap of two underscores
(`ownSignal_inj`): it can be read off the beginning.

Main statement: the names that a composite declares for its instances are all different
(`instance_names_apart`).
-/

namespace TaskLoom

theorem append_inj_of_last {α : Type} {xs ys xs' ys' : List α} {a : α} (hys : a ∉ ys) (hys' : a ∉ ys')
    (h : xs ++ a :: ys = xs' ++ a :: ys') : xs = xs' ∧ ys = ys' := by
  -- what stands between the two places is empty, or else holds a later separator
  have hnil {us vs ws : List α} (hus : a ∉ us) (he : a :: us = vs ++ a :: ws) : vs = [] := by
    cases vs with
    | nil => rfl
    | cons v vs =>
      rw [List.cons_append, List.cons.injEq] at he
      exact absurd (he.2 ▸ List.mem_append_right _ List.mem_cons_self) hus
  rcases List.append_eq_append_iff.1 h with ⟨vs, rfl, he⟩ | ⟨vs, rfl, he⟩
  · obtain rfl := hnil hys he
    exact ⟨(List.append_nil _).symm, (List.cons.inj he).2⟩
  · obtain rfl := hnil hys' he
    exact ⟨List.append_nil _, (List.cons.inj he).2.symm⟩

/-- A name that neither contains two underscores in a row nor ends in one. -/
def Spaced (name : String) : Prop := ¬ ['_', '_'] <:+: name.toList ∧ ¬ ['_'] <:+ name.toList

instance (name : String) : Decidable (Spaced name) := inferInstanceAs (Decidable (_ ∧ _))

/-- No two neighbours are both underscores. -/
def Parted (cs : List Char) : Prop := cs.IsChain fun a b => a = '_' → b ≠ '_'

theorem parted_iff {cs : List Char} : Parted cs ↔ ¬ ['_', '_'] <:+: cs := by
  rw [Parted, List.isChain_iff_forall_rel_of_append_cons_cons]
  constructor
  · rintro h ⟨xs, ys, rfl⟩
    exact h (List.append_assoc ..) rfl rfl
  · rintro h a b xs ys rfl rfl rfl
    exact h ⟨xs, ys, by simp⟩

/-- A name is spaced if it may be followed by an underscore. -/
theorem spaced_iff {name : String} : Spaced name ↔ Parted (name.toList ++ ['_']) := by
  rw [Spaced, ← parted_iff]
  unfold Parted
  rw [List.isChain_append]
  simp only [List.isChain_singleton, List.head?_cons, Option.mem_def, Option.some.injEq, true_and,
    and_congr_right_iff]
  intro _
  constructor
  · rintro h a ha _ rfl rfl
    obtain ⟨xs, hxs⟩ := List.getLast?_eq_some_iff.1 ha
    exact absurd ⟨xs, hxs.symm⟩ h
  · rintro h ⟨xs, hxs⟩
    exact h '_' (by rw [← hxs]; simp) '_' rfl rfl rfl

theorem not_mem_toDigits {c : Char} (hc : c.isDigit = false) (n : Nat) :
    c ∉ Nat.toDigits 10 n := by
  intro h
  rw [Nat.isDigit_of_mem_toDigits (by decide) (by decide) h] at hc
  cases hc

theorem toDigits_inj {j k : Nat} (h : Nat.toDigits 10 j = Nat.toDigits 10 k) : j = k := by
  rw [← Nat.ofDigitChars_ten_toDigits (n := j), h, Nat.ofDigitChars_ten_toDigits]

theorem toList_instanceName (task : String) (k : Nat) :
    (instanceName task k).toList = task.toList ++ '_' :: Nat.toDigits 10 k := by
  have hshown : toString (k : Int) = toString k := rfl
  simp [instanceName, hshown]

/-- The name of an instance determines its task and its number. -/
theorem instanceName_inj {t t' : String} {j k : Nat} (h : instanceName t j = instanceName t' k) :
    t = t' ∧ j = k := by
  have hchars := congrArg String.toList h
  rw [toList_instanceName, toList_instanceName] at hchars
  obtain ⟨htask, hdigits⟩ := append_inj_of_last (not_mem_toDigits rfl j) (not_mem_toDigits rfl k)
    hchars
  exact ⟨String.toList_inj.1 htask, toDigits_inj hdigits⟩

theorem spaced_instanceName {task : String} (h : Spaced task) (k : Nat) :
    Spaced (instanceName task k) := by
  have hdigits : (Nat.toDigits 10 k ++ ['_']).IsChain fun a b => a = '_' → b ≠ '_' := by
    refine List.isChain_append.2 ⟨?_, List.isChain_singleton _, ?_⟩
    · refine List.Pairwise.isChain (List.pairwise_of_forall_mem_list ?_)
      rintro a ha b - rfl
      exact absurd ha (not_mem_toDigits rfl k)
    · rintro a ha b - rfl
      exact absurd (List.mem_of_getLast? ha) (not_mem_toDigits rfl k)
  rw [spaced_iff] at h ⊢
  rw [toList_instanceName, List.append_assoc, List.cons_append]
  refine List.isChain_split.2 ⟨h, List.isChain_cons.2 ⟨?_, hdigits⟩⟩
  rintro b hb - rfl
  cases hd : Nat.toDigits 10 k with
  | nil => exact Nat.toDigits_ne_nil hd
  | cons d ds =>
    rw [hd] at hb
    obtain rfl : d = '_' := by simpa using hb
    exact not_mem_toDigits rfl k (hd ▸ List.mem_cons_self)

/-- The name in front of the first gap and the role behind it. -/
theorem ownSignal_inj {n n' r r' : String} (hn : Spaced n) (hn' : Spaced n')
    (h : ownSignal n r = ownSignal n' r') : n = n' ∧ r = r' := by
  -- a longer name would hold the gap, or its first underscore at the end
  have hnil {n us xs ys : List Char} (hus : Parted (n ++ us ++ ['_']))
      (he : '_' :: '_' :: xs = us ++ '_' :: '_' :: ys) : us = [] := by
    cases us with
    | nil => rfl
    | cons u us =>
      refine absurd ?_ (parted_iff.1 hus)
      cases us with
      | nil =>
        obtain rfl := (List.cons.inj he).1
        exact ⟨n, [], by simp⟩
      | cons v us =>
        obtain ⟨hu, he⟩ := List.cons.inj he
        obtain ⟨hv, -⟩ := List.cons.inj he
        subst hu hv
        exact ⟨n, us ++ ['_'], by simp⟩
  have hchars := congrArg String.toList h
  simp only [ownSignal, String.toList_append] at hchars
  rw [List.append_assoc, List.append_assoc] at hchars
  rw [spaced_iff] at hn hn'
  rcases List.append_eq_append_iff.1 hchars with ⟨us, hus, he⟩ | ⟨us, hus, he⟩
  · obtain rfl := hnil (hus ▸ hn') he
    rw [List.append_nil] at hus
    exact ⟨String.toList_inj.1 hus.symm, String.toList_inj.1 (List.append_cancel_left he)⟩
  · obtain rfl := hnil (hus ▸ hn) he
    rw [List.append_nil] at hus
    exact ⟨String.toList_inj.1 hus, String.toList_inj.1 (List.append_cancel_left he).symm⟩

theorem ownSignal_ne {n n' r : String} (hn' : Spaced n') : ownSignal n r ≠ n' := by
  rintro rfl
  refine hn'.1 ⟨n.toList, r.toList, ?_⟩
  simp [ownSignal]

theorem Pipeline.stageNames_eq (p : Pipeline) :
    p.stageNames = (List.range (p.level + 1)).map p.stageName := by
  simp [stageNames, signals, List.range_succ_eq_map, Function.comp_def, first]

theorem Pipeline.toList_stageName (p : Pipeline) (k : Nat) : (p.stageName k).toList =
    p.name.toList ++ ['_', '_'] ++ 'q' :: Nat.toDigits 10 k := by
  simp [Pipeline.stageName]

/-- The name of a stage determines its pipeline and its number. -/
theorem Pipeline.stage_inj {p q : Pipeline} {j k : Nat} (h : p.stageName j = q.stageName k) :
    p.name = q.name ∧ j = k := by
  have hchars := congrArg String.toList h
  rw [toList_stageName, toList_stageName] at hchars
  obtain ⟨hname, hdigits⟩ := append_inj_of_last (not_mem_toDigits rfl j) (not_mem_toDigits rfl k)
    hchars
  exact ⟨String.toList_inj.1 (List.append_cancel_right hname), toDigits_inj hdigits⟩

/-- The names of the stages of a pipeline that is called `base`. -/
def stagesOf (level : Nat) (base : String) : List String := (Pipeline.make base level 1).stageNames

/-- The width does not matter. -/
theorem Pipeline.stageNames_make (base : String) (level : Nat) (width : Int) :
    (Pipeline.make base level width).stageNames = stagesOf level base := by
  rw [stagesOf, stageNames_eq, stageNames_eq]
  rfl

theorem mem_stagesOf {level : Nat} {base n : String} :
    n ∈ stagesOf level base ↔ ∃ k ≤ level, (Pipeline.make base level 1).stageName k = n := by
  rw [stagesOf, Pipeline.stageNames_eq, List.mem_map]
  simp only [List.mem_range, Nat.lt_succ_iff]
  rfl

theorem nodup_stagesOf (level : Nat) (base : String) : (stagesOf level base).Nodup := by
  rw [stagesOf, Pipeline.stageNames_eq]
  exact List.Nodup.map_on (fun _ _ _ _ h => (Pipeline.stage_inj h).2) List.nodup_range

/-- Pipelines with different names share no stage. -/
theorem nodup_stages {level : Nat} {bases : List String} (h : bases.Nodup) :
    (bases.flatMap (stagesOf level)).Nodup := by
  refine List.nodup_flatMap.2 ⟨fun base _ => nodup_stagesOf level base, h.imp ?_⟩
  intro base base' hne n hn hn'
  obtain ⟨j, -, rfl⟩ := mem_stagesOf.1 hn
  obtain ⟨k, -, hk⟩ := mem_stagesOf.1 hn'
  exact hne (Pipeline.stage_inj hk).1.symm

/-! ### The names of one instance -/

namespace Instance

/-- The arguments of an instance that are delayed. -/
def delayed (i : Instance) : List Arg := i.args.filter fun a => !a.category.isStream

/-- The pipelines that each instance has. -/
def plainBases (i : Instance) : List String :=
  instanceReset i.name :: i.delayed.map fun a => instanceArg i.name a.name

/-- The pipelines between an instance and the controller. -/
def controlBases (i : Instance) : List String :=
  [instanceStartGlobal i.name, instanceIsDone i.name, instanceDoneGlobal i.name]

/-- All names that a composite may declare for an instance: its own name, the signals of its
handshake, and the stages of its pipelines. -/
def ownNames (level : Nat) (i : Instance) : List String :=
  i.name :: ((handshakeSignals i.name).map Signal.name ++
    (i.plainBases ++ i.controlBases).flatMap (stagesOf level))

/-- The names that a composite declares also for an instance that runs on its own. -/
def plainNames (level : Nat) (i : Instance) : List String :=
  i.name :: instanceStart i.name :: i.plainBases.flatMap (stagesOf level)

end Instance

/-- The role of a delayed argument. -/
def argRole (arg : String) : String :=
  match Literal.sized? arg with
  | some c => "_const__" ++ toString c.width ++ "b" ++ toString c.value.toNat
  | none => "_" ++ flatName arg

theorem instanceArg_eq (placed arg : String) :
    instanceArg placed arg = ownSignal placed (argRole arg) := by
  unfold instanceArg argRole
  cases Literal.sized? arg with
  | some c =>
    show placed ++ "___const__" ++ toString c.width ++ "b" ++ toString c.value.toNat = _
    exact String.toList_inj.1 (by simp [ownSignal])
  | none => exact String.toList_inj.1 (by simp [ownSignal])

theorem head_argRole (arg : String) : (argRole arg).toList.head? = some '_' := by
  unfold argRole
  cases Literal.sized? arg <;> simp

/-- The roles of the pipelines between an instance and the controller. -/
def controlRoles : List String := ["ap_start_global", "is_done", "ap_done_global"]

/-- The roles of the signals of a handshake. -/
def signalRoles : List String := ["state", startPort, donePort, idlePort, readyPort]

theorem handshakeSignals_names (placed : String) :
    (handshakeSignals placed).map Signal.name = signalRoles.map (ownSignal placed) := rfl

theorem stageName_role (level : Nat) (placed role : String) (k : Nat) :
    (Pipeline.make (ownSignal placed role) level 1).stageName k =
      ownSignal placed (role ++ "__q" ++ toString k) := by
  simp [Pipeline.stageName, Pipeline.make, ownSignal, String.append_assoc]

namespace Instance

variable {i : Instance} {level : Nat}

/-- The roles of the pipelines of an instance. -/
def pipelineRoles (i : Instance) : List String :=
  (resetPort :: i.delayed.map fun a => argRole a.name) ++ controlRoles

theorem bases_eq (i : Instance) :
    i.plainBases ++ i.controlBases = i.pipelineRoles.map (ownSignal i.name) := by
  simp only [plainBases, controlBases, pipelineRoles, controlRoles, List.map_append, List.map_cons,
    List.map_map, Function.comp_def, instanceArg_eq, List.map_nil]
  rfl

theorem exists_role {n : String} (hn : n ∈ i.ownNames level) :
    n = i.name ∨ ∃ role, n = ownSignal i.name role := by
  rw [ownNames, bases_eq, handshakeSignals_names, List.mem_cons, List.mem_append] at hn
  rcases hn with rfl | hn | hn
  · exact .inl rfl
  · obtain ⟨role, -, rfl⟩ := List.mem_map.1 hn
    exact .inr ⟨role, rfl⟩
  · obtain ⟨base, hbase, hn⟩ := List.mem_flatMap.1 hn
    obtain ⟨role, -, rfl⟩ := List.mem_map.1 hbase
    obtain ⟨k, -, rfl⟩ := mem_stagesOf.1 hn
    exact .inr ⟨_, stageName_role _ _ _ _⟩

theorem nodup_pipelineRoles (hlabels : (i.delayed.map fun a => instanceArg i.name a.name).Nodup) :
    i.pipelineRoles.Nodup := by
  have hargs : (i.delayed.map fun a => argRole a.name).Nodup := by
    refine List.Nodup.of_map (ownSignal i.name) ?_
    simpa only [List.map_map, Function.comp_def, instanceArg_eq] using hlabels
  -- the role of an argument begins with an underscore, no other role does
  have hapart : ∀ role ∈ resetPort :: controlRoles, ∀ a : Arg, argRole a.name ≠ role := by
    intro role hrole a he
    have hhead : ∀ role ∈ resetPort :: controlRoles, role.toList.head? ≠ some '_' := by decide
    exact hhead role hrole (he ▸ head_argRole a.name)
  refine List.nodup_append.2 ⟨List.nodup_cons.2 ⟨fun hmem => ?_, hargs⟩, by decide, ?_⟩
  · obtain ⟨a, -, he⟩ := List.mem_map.1 hmem
    exact hapart _ List.mem_cons_self a he
  · intro role hrole role' hrole' he
    subst he
    rcases List.mem_cons.1 hrole with rfl | hrole
    · exact absurd hrole' (by decide)
    · obtain ⟨a, -, he⟩ := List.mem_map.1 hrole
      exact hapart _ (List.mem_cons_of_mem _ hrole') a he

/-- The names of one instance are all different. -/
theorem nodup_ownNames (hspaced : Spaced i.name)
    (hlabels : (i.delayed.map fun a => instanceArg i.name a.name).Nodup) :
    (i.ownNames level).Nodup := by
  have hinj : Function.Injective (ownSignal i.name) :=
    fun _ _ h => (ownSignal_inj hspaced hspaced h).2
  rw [ownNames, bases_eq, handshakeSignals_names]
  refine List.nodup_cons.2 ⟨fun hmem => ?_, List.nodup_append.2 ⟨?_, ?_, ?_⟩⟩
  · obtain ⟨role, he⟩ : ∃ role, i.name = ownSignal i.name role := by
      rcases List.mem_append.1 hmem with hmem | hmem
      · obtain ⟨role, -, he⟩ := List.mem_map.1 hmem
        exact ⟨role, he.symm⟩
      · obtain ⟨base, hbase, hmem⟩ := List.mem_flatMap.1 hmem
        obtain ⟨role, -, rfl⟩ := List.mem_map.1 hbase
        obtain ⟨k, -, he⟩ := mem_stagesOf.1 hmem
        exact ⟨_, he.symm.trans (stageName_role _ _ _ _)⟩
    exact ownSignal_ne hspaced he.symm
  · exact List.Nodup.map hinj (by decide)
  · exact nodup_stages (List.Nodup.map hinj (nodup_pipelineRoles hlabels))
  · -- the role of a stage has the letter of its number in it
    intro n hn n' hn' he
    subst he
    obtain ⟨role, hrole, rfl⟩ := List.mem_map.1 hn
    obtain ⟨base, hbase, hn'⟩ := List.mem_flatMap.1 hn'
    obtain ⟨role', -, rfl⟩ := List.mem_map.1 hbase
    obtain ⟨k, -, he⟩ := mem_stagesOf.1 hn'
    rw [stageName_role] at he
    have hletter : ∀ role ∈ signalRoles, 'q' ∉ role.toList := by decide
    refine hletter role hrole ?_
    rw [← hinj he]
    simp

end Instance

/-! ### Declared names -/

theorem Module.declared_of_signal {name : String} {items : List Item} {m : Module}
    (hadd : (Module.new name).addAll items = .ok m) {s : Signal}
    (hs : .signal s ∈ items) : m.declared s.name = true :=
  (Module.declared_addAll hadd).2 (.inr (name_mem_of_signal hs))

/-- The stages of a pipeline of a module are declared. -/
theorem Pipeline.declared_stages {name : String} {items : List Item} {m : Module} {p : Pipeline}
    {seed : Expr} (hadd : (Module.new name).addAll items = .ok m)
    (hp : p.items seed ⊆ items) {n : String} (hn : n ∈ p.stageNames) : m.declared n = true := by
  obtain ⟨s, hs, rfl⟩ := List.mem_map.1 hn
  exact Module.declared_of_signal hadd (p.signal_mem hp hs)

section
variable {level : Nat} {i : Instance} {items : List Item} {name n : String} {m : Module}

theorem Furnished.declares_plain (h : Furnished level i items)
    (hadd : (Module.new name).addAll items = .ok m) (hn : n ∈ i.plainNames level) :
    m.declared n = true := by
  rw [Instance.plainNames, Instance.plainBases, List.mem_cons, List.mem_cons,
    List.flatMap_cons, List.mem_append] at hn
  rcases hn with rfl | rfl | hn | hn
  · obtain ⟨c, hc, hname⟩ := h.cell
    exact (Module.declared_addAll hadd).2 (.inr (mem_namesOf.2 ⟨_, hc, congrArg some hname⟩))
  · exact Module.declared_of_signal hadd h.start
  · exact Pipeline.declared_stages hadd h.reset hn
  · obtain ⟨base, hbase, hn⟩ := List.mem_flatMap.1 hn
    obtain ⟨a, ha, rfl⟩ := List.mem_map.1 hbase
    obtain ⟨ha, hstream⟩ := List.mem_filter.1 ha
    obtain ⟨seed, width, hitems, -⟩ := h.args a ha (by simpa using hstream)
    refine Pipeline.declared_stages hadd hitems ?_
    rw [argTap, Pipeline.stageNames_make]
    exact hn

/-- What an instance that is started needs besides. -/
theorem Furnished.declares_own (h : Furnished level i items)
    (hadd : (Module.new name).addAll items = .ok m) (hauto : i.isAutorun = false)
    (hn : n ∈ i.ownNames level) : m.declared n = true := by
  have hhandshake := h.handshake hauto
  have htaps : tapItems level i.name ⊆ items := fun x hx =>
    hhandshake (List.mem_append_right _ (List.mem_append_left _ hx))
  rw [Instance.ownNames, List.flatMap_append, List.mem_cons, List.mem_append, List.mem_append] at hn
  rcases hn with rfl | hn | hn | hn
  · exact h.declares_plain hadd List.mem_cons_self
  · obtain ⟨s, hs, rfl⟩ := List.mem_map.1 hn
    exact Module.declared_of_signal hadd
      (hhandshake (List.mem_append_left _ (List.mem_map_of_mem hs)))
  · exact h.declares_plain hadd (List.mem_cons_of_mem _ (List.mem_cons_of_mem _ hn))
  · obtain ⟨base, hbase, hn⟩ := List.mem_flatMap.1 hn
    simp only [Instance.controlBases, List.mem_cons, List.not_mem_nil, or_false] at hbase
    rcases hbase with rfl | rfl | rfl
    · exact Pipeline.declared_stages hadd (p := startTap level i.name)
        (fun x hx => htaps (List.mem_append_left _ hx)) hn
    · exact Pipeline.declared_stages hadd (p := isDoneTap level i.name)
        (fun x hx => htaps (List.mem_append_right _ (List.mem_append_left _ hx))) hn
    · exact Pipeline.declared_stages hadd (p := doneTap level i.name)
        (fun x hx => htaps (List.mem_append_right _ (List.mem_append_right _ hx))) hn

end

/-- The name of an instance determines its task and its number.  Take any instances with different
tasks or numbers, whose tasks have names without a gap, and within each of which no two delayed
arguments have one label.  Then all names that a composite may declare for them are different, over
all instances, roles, arguments and stages; and if they are the instances of a task for which a
module is generated, then it declares these names, those of the handshake only for the instances
that do not run on their own. -/
theorem instance_names_apart (level : Nat) {insts : List Instance}
    (hdistinct : insts.Pairwise fun i j => i.task.name = j.task.name → i.index ≠ j.index)
    (hspaced : ∀ i ∈ insts, Spaced i.task.name)
    (hlabels : ∀ i ∈ insts, (i.delayed.map fun a => instanceArg i.name a.name).Nodup) :
    (∀ (t t' : String) (j k : Nat), instanceName t j = instanceName t' k → t = t' ∧ j = k) ∧
    (insts.map Instance.name).Nodup ∧ (insts.flatMap (Instance.ownNames level)).Nodup ∧
    ∀ {o : Options} {program : Program} {parts : Parts} {t : Task} {m : Module},
      o.registerLevel = level → program.instances t = .ok insts →
      (generateTask o program parts t).2 = .ok m → ∀ i ∈ insts,
        (∀ n ∈ i.plainNames level, m.declared n = true) ∧
        (i.isAutorun = false → ∀ n ∈ i.ownNames level, m.declared n = true) := by
  have hnames : insts.Pairwise fun i j => i.name ≠ j.name := hdistinct.imp fun hne he =>
    hne (instanceName_inj he).1 (instanceName_inj he).2
  have hclear : ∀ i ∈ insts, Spaced i.name := fun i hi => spaced_instanceName (hspaced i hi) i.index
  refine ⟨fun _ _ _ _ h => instanceName_inj h, List.pairwise_map.2 hnames, ?_, ?_⟩
  · refine List.nodup_flatMap.2
      ⟨fun i hi => Instance.nodup_ownNames (hclear i hi) (hlabels i hi), ?_⟩
    refine (List.Pairwise.and_mem.1 hnames).imp fun hij n hn hn' => ?_
    obtain ⟨hi, hj, hne⟩ := hij
    rcases Instance.exists_role hn with rfl | ⟨role, rfl⟩
    · rcases Instance.exists_role hn' with he | ⟨role', he⟩
      · exact hne he
      · exact ownSignal_ne (hclear _ hi) he.symm
    · rcases Instance.exists_role hn' with he | ⟨role', he⟩
      · exact ownSignal_ne (hclear _ hj) he
      · exact hne (ownSignal_inj (hclear _ hi) (hclear _ hj) he).1
  · rintro o program parts t m rfl hinsts hgen i hi
    obtain ⟨insts', items, hinsts', hadd, -, hfurnished⟩ := generateTask_furnished hgen
    obtain rfl := Except.ok.inj (hinsts.symm.trans hinsts')
    exact ⟨fun n hn => (hfurnished i hi).declares_plain hadd hn,
      fun hauto n hn => (hfurnished i hi).declares_own hadd hauto hn⟩

/-- Two instances of one task, one of which runs on its own, and an instance of a task that is
called like the second of them. -/
def numberedTask : Task where
  name := "Top"
  level := .composite
  ports := [⟨"n", .scalar, "int", 32⟩]
  childTable := [⟨"A", [⟨0, [⟨"n", .scalar, "x"⟩, ⟨"8'd3", .scalar, "y"⟩]⟩, ⟨-1, []⟩]⟩,
    ⟨"A_1", [⟨0, []⟩]⟩]

def numberedInstances : List Instance :=
  [⟨{ name := "A", level := .leaf }, 0, 0, [⟨"8'd3", .scalar, "y"⟩, ⟨"n", .scalar, "x"⟩]⟩,
   ⟨{ name := "A", level := .leaf }, 1, -1, []⟩, ⟨{ name := "A_1", level := .leaf }, 0, 0, []⟩]

def numberedProgram : Program where
  top := "Top"
  taskTable := [{ name := "A", level := .leaf }, { name := "A_1", level := .leaf }, numberedTask]

def numberedParts : Parts where
  modules := [
    ("A", { name := "A", ports := basePorts ++ [⟨"x", .input, none⟩, ⟨"y", .input, none⟩] }),
    ("A_1", { name := "A_1", ports := basePorts })]

theorem instance_names_apart_numbered :
    numberedInstances.map Instance.name = ["A_0", "A_1", "A_1_0"] ∧
    (∀ i ∈ numberedInstances, Spaced i.task.name) ∧
    (numberedInstances.flatMap (Instance.ownNames 2)).Nodup ∧ ∃ m,
      (generateTask { registerLevel := 2 } numberedProgram numberedParts numberedTask).2 = .ok m ∧
      ∀ i ∈ numberedInstances, i.isAutorun = false → ∀ n ∈ i.ownNames 2, m.declared n = true := by
  have hspaced : ∀ i ∈ numberedInstances, Spaced i.task.name := by decide
  obtain ⟨-, -, hnodup, hdeclared⟩ := instance_names_apart 2 (by decide) hspaced (by decide +kernel)
  refine ⟨by decide, hspaced, hnodup, ?_⟩
  have hok : (generateTask { registerLevel := 2 } numberedProgram numberedParts
      numberedTask).2.isOk = true := by decide +kernel
  cases hm : (generateTask { registerLevel := 2 } numberedProgram numberedParts numberedTask).2 with
  | ok m => exact ⟨m, rfl, fun i hi => (hdeclared rfl rfl hm i hi).2⟩
  | error e =>
    rw [hm] at hok
    cases hok

end TaskLoom
