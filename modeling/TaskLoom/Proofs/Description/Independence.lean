import TaskLoom.Command.Run
import TaskLoom.Proofs.Composite.Rearranged
import TaskLoom.Proofs.Description.WrittenOrder
import Mathlib

/-!
# Independence of the written order

Two texts that differ in the order of the members of objects describe programs that differ in the
order of their tables (`parse_agree`), and nothing that is made of a program depends on that order
(`Program.Rearranged.indistinguishable`).  So the texts give the same design on otherwise equal file
trees (`outcome_buildDesign`), and `written_order_irrelevant` puts this together.
-/

namespace TaskLoom

theorem attachModules_sorted (p : Program) (ms : List Module) :
    attachModules p.sorted ms = attachModules p ms := by
  rw [attachModules, attachModules, p.tasks_sorted]
  simp only [List.filterMap_map]
  rfl

theorem leavesWithoutModule_sorted (p : Program) (parts : Parts) :
    leavesWithoutModule p.sorted parts = leavesWithoutModule p parts := by
  rw [leavesWithoutModule, leavesWithoutModule, p.tasks_sorted, List.filter_map,
    List.map_map]
  rfl

/-- Equal messages, and programs that cannot be told apart with equal modules, or failures with one
class and one message. -/
inductive SameLoad : List LogEntry × Except LoadError Bundle →
    List LogEntry × Except LoadError Bundle → Prop
  | ok (log : List LogEntry) {b c : Bundle} (hprogram : b.program.Indistinguishable c.program)
      (hparts : b.parts = c.parts) : SameLoad (log, .ok b) (log, .ok c)
  | error (log : List LogEntry) {e e' : LoadError} (hkind : e.kind? = e'.kind?)
      (hmessage : e.message = e'.message) : SameLoad (log, .error e) (log, .error e')

theorem sameLoad_assemble {p q : Program} (hp : p.Decoded) (h : p.Rearranged q) (dir : String)
    (sources : List SourceFile) : SameLoad (assemble p dir sources) (assemble q dir sources) := by
  have hsorted := Program.sorted_eq hp h
  rw [assemble, assemble]
  split
  · exact .error _ rfl rfl
  · rename_i log ms _
    have hparts : attachModules p ms = attachModules q ms := by
      rw [← attachModules_sorted, hsorted, attachModules_sorted]
    have hleaves (parts : Parts) : leavesWithoutModule p parts = leavesWithoutModule q parts := by
      rw [← leavesWithoutModule_sorted, hsorted, leavesWithoutModule_sorted]
    simp only [hparts, hleaves]
    split
    · exact .ok log (h.indistinguishable hp) rfl
    · exact .error _ rfl rfl

theorem sameLoad_load {t t' : FileTree} {file dir s s' : String} (hs : t.read file = .ok s)
    (hs' : t'.read file = .ok s')
    (hparse : Description.SameOutcome (Description.parse .double s) (Description.parse .double s'))
    (hdecoded : ∀ p, Description.parse .double s = .ok p → p.Decoded)
    (hsrc : readSources t dir = readSources t' dir) :
    SameLoad (load t file dir) (load t' file dir) := by
  simp only [load, loadProgram, hs, hs', hsrc]
  split
  · exact .error _ rfl rfl
  revert hparse hdecoded
  generalize Description.parse .double s = a, Description.parse .double s' = b
  intro hparse hdecoded
  cases hparse with
  | @error e e' h =>
    have hmessage : (LoadError.description file e).message =
        (LoadError.description file e').message :=
      congrArg (fun m => s!"{file}: {m}") h.message
    exact .error [] (congrArg some h.kind) hmessage
  | @ok p q h =>
    have hp := hdecoded p rfl
    dsimp only
    split
    · exact .ok [] (h.indistinguishable hp) rfl
    · cases readSources t' dir with
      | error e => exact .error [] rfl rfl
      | ok sources => exact sameLoad_assemble hp h dir sources

namespace Running

variable {α β : Type} {t t' : FileTree}

/-- What an action on a file tree gives, prints and notes. -/
def report (act : Running α) (t : FileTree) : Except CommandError α × String × List LogEntry :=
  match act { files := t } with
  | .ok a s => (.ok a, s.stdout, s.log)
  | .error e s => (.error e, s.stdout, s.log)

/-- The same result with other files behind it. -/
def withFiles (t : FileTree) : EStateM.Result CommandError Session α →
    EStateM.Result CommandError Session α
  | .ok a s => .ok a { s with files := t }
  | .error e s => .error e { s with files := t }

/-- The action neither looks at the files nor changes them. -/
def FileBlind (act : Running α) : Prop :=
  ∀ (s : Session) (t : FileTree), act { s with files := t } = withFiles t (act s)

theorem FileBlind.bind {act : Running α} {f : α → Running β} (ha : FileBlind act)
    (hf : ∀ a, FileBlind (f a)) : FileBlind (act >>= f) := by
  intro s t
  have has := ha s t
  simp only [Bind.bind, EStateM.bind, has]
  cases act s with
  | ok a s' => exact hf a s' t
  | error e s' => rfl

theorem fileBlind_pure (a : α) : FileBlind (pure a) := fun _ _ => rfl

theorem fileBlind_note (entries : List LogEntry) : FileBlind (note entries) := fun _ _ => rfl

theorem fileBlind_throw (e : CommandError) : FileBlind (throw e : Running α) := fun _ _ => rfl

theorem fileBlind_ofExcept {ε : Type} (wrap : ε → CommandError) (r : Except ε α) :
    FileBlind (ofExcept wrap r) := by
  cases r with
  | ok a => exact fileBlind_pure a
  | error e => exact fileBlind_throw _

theorem fileBlind_checkProgram (p : Program) : FileBlind (checkProgram p) := by
  unfold checkProgram
  cases Program.check (some p) with
  | ok u => exact fileBlind_pure ()
  | error e =>
    cases e with
    | issues found => exact (fileBlind_note _).bind fun _ => fileBlind_throw _
    | noProgram => exact fileBlind_throw _

theorem FileBlind.report {act : Running α} (h : FileBlind act) (t t' : FileTree) :
    act.report t = act.report t' := by
  have ht := h { files := t } t'
  simp only [Running.report, ht]
  cases act { files := t } <;> rfl

/-- What is left to do for a design when everything is loaded. -/
def designOf (o : Options) (loaded : List LogEntry × Except LoadError Bundle) :
    Running (Design × Bundle) := do
  note loaded.1
  let b ← ofExcept .load loaded.2
  checkProgram b.program
  note (generate o b.program b.parts).log
  return (← ofExcept .compose (generate o b.program b.parts).result, b)

theorem fileBlind_designOf (o : Options) (loaded : List LogEntry × Except LoadError Bundle) :
    FileBlind (designOf o loaded) := by
  refine (fileBlind_note _).bind fun _ => (fileBlind_ofExcept _ _).bind fun b => ?_
  refine (fileBlind_checkProgram _).bind fun _ => (fileBlind_note _).bind fun _ => ?_
  exact (fileBlind_ofExcept _ _).bind fun _ => fileBlind_pure _

/-- The design that is built, or the class and the message of the failure, with what is printed and
noted on the way. -/
def outcome (act : Running (Design × Bundle)) (t : FileTree) :
    Except (Option Kind × String) Design × String × List LogEntry :=
  match act.report t with
  | (.ok (d, _), printed, log) => (.ok d, printed, log)
  | (.error e, printed, log) => (.error (e.kind?, e.message), printed, log)

/-- The bundle that a design comes with is not part of the outcome. -/
theorem outcome_bundle (act : Running Unit) (r : Except ComposeError Design) (b c : Bundle)
    (t : FileTree) : (do act; return (← ofExcept .compose r, b) : Running _).outcome t =
      (do act; return (← ofExcept .compose r, c) : Running _).outcome t := by
  simp only [outcome, report, bind, EStateM.bind]
  cases act { files := t } with
  | error e s => rfl
  | ok u s => cases r <;> rfl

theorem outcome_designOf {loaded loaded' : List LogEntry × Except LoadError Bundle}
    (h : SameLoad loaded loaded') (o : Options) (t : FileTree) :
    (designOf o loaded).outcome t = (designOf o loaded').outcome t := by
  cases h with
  | @error log e e' hkind hmessage =>
    show (Except.error (e.kind?, e.message), "", [] ++ log) =
      (Except.error (e'.kind?, e'.message), "", [] ++ log)
    rw [hkind, hmessage]
  | @ok log b c hprogram hparts =>
    have hcheck : checkProgram b.program = checkProgram c.program := by
      unfold checkProgram
      rw [hprogram.check]
    have hrun (b : Bundle) : designOf o (log, .ok b) = (do
        (do note log; checkProgram b.program; note (generate o b.program b.parts).log : Running Unit)
        return (← ofExcept .compose (generate o b.program b.parts).result, b)) := by
      simp only [bind_assoc]
      rfl
    rw [hrun, hrun, hcheck, hprogram.generate, hparts]
    exact outcome_bundle _ _ b c t

/-- A design depends on the files only through what is loaded from them. -/
theorem outcome_buildDesign {file dir : String}
    (h : SameLoad (TaskLoom.load t file dir) (TaskLoom.load t' file dir)) (o : Options) :
    (buildDesign o file dir).outcome t = (buildDesign o file dir).outcome t' := by
  calc (buildDesign o file dir).outcome t
      = (designOf o (TaskLoom.load t file dir)).outcome t := rfl
    _ = (designOf o (TaskLoom.load t' file dir)).outcome t := outcome_designOf h o t
    _ = (designOf o (TaskLoom.load t' file dir)).outcome t' := by
      rw [outcome, (fileBlind_designOf o _).report t t']
      rfl
    _ = (buildDesign o file dir).outcome t' := rfl

end Running

/-! ### The order in which members are written -/

/-- Take two texts that differ in the order in which the members of objects are written, where no
object has a name twice and no record has two names that differ in upper and lower case only.  Both
describe programs that differ in the order of their tables, or both fail, with one class, one
message and the same notes or issues.  Decoded programs that differ in the order of their tables
have equal names, instances and orders of composition, are checked with the same outcome, and give
the same modules in the same order, or the same error.  With the same sources next to them, both
texts give the same design, or the same class and message, and the same messages on the way. -/
theorem written_order_irrelevant {s s' : String} {v w : Value} (hs : Value.ofText? s = some v)
    (hs' : Value.ofText? s' = some w) (hvw : v.Reordered w) (hdistinct : v.Distinct)
    (hclear : Description.Clear v) :
    (∀ style,
      (∃ p q, Description.parse style s = .ok p ∧ Description.parse style s' = .ok q ∧
        p.Rearranged q ∧ p.Indistinguishable q) ∨
      ∃ e e', Description.parse style s = .error e ∧ Description.parse style s' = .error e' ∧
        e.Alike e') ∧
    (∀ p q : Program, p.Decoded → p.Rearranged q → p.Indistinguishable q) ∧
    ∀ t t' : FileTree, ∀ file dir, t.read file = .ok s → t'.read file = .ok s' →
      readSources t dir = readSources t' dir → ∀ o,
        (Running.buildDesign o file dir).outcome t = (Running.buildDesign o file dir).outcome t' := by
  have hparse := Description.parse_agree hs hs' hvw hdistinct hclear
  refine ⟨fun style => ?_, fun p q hp h => h.indistinguishable hp,
    fun t t' file dir ht ht' hsrc o => ?_⟩
  · have hstyle := hparse style
    have hdecoded : ∀ p, Description.parse style s = .ok p → p.Decoded :=
      fun p => Program.decoded_of_parse
    revert hstyle hdecoded
    generalize Description.parse style s = a, Description.parse style s' = b
    intro hstyle hdecoded
    cases hstyle with
    | ok h => exact .inl ⟨_, _, rfl, rfl, h, h.indistinguishable (hdecoded _ rfl)⟩
    | error h => exact .inr ⟨_, _, rfl, rfl, h⟩
  · refine Running.outcome_buildDesign ?_ o
    exact sameLoad_load ht ht' (hparse .double) (fun p => Program.decoded_of_parse) hsrc

/-- A task that places another one, with all members out of order. -/
def turnedText : String :=
  "\x7b\"top\":\"B\",\"tasks\":\x7b\"B\":\x7b\"tasks\":\x7b\"A\":[\x7b\x7d]\x7d," ++
  "\"level\":\"upper\"\x7d,\"A\":\x7b\"level\":\"upper\"\x7d\x7d\x7d"

/-- The same with all members in order. -/
def straightText : String :=
  "\x7b\"tasks\":\x7b\"A\":\x7b\"level\":\"upper\"\x7d,\"B\":\x7b\"level\":\"upper\"," ++
  "\"tasks\":\x7b\"A\":[\x7b\x7d]\x7d\x7d\x7d,\"top\":\"B\"\x7d"

def turnedValue : Value :=
  .object [("top", .text "B"), ("tasks", .object [
    ("B", .object [("tasks", .object [("A", .list [.object []])]), ("level", .text "upper")]),
    ("A", .object [("level", .text "upper")])])]

def straightValue : Value :=
  .object [("tasks", .object [
    ("A", .object [("level", .text "upper")]),
    ("B", .object [("level", .text "upper"), ("tasks", .object [("A", .list [.object []])])])]),
    ("top", .text "B")]

/-- The tasks of both texts, in either order. -/
def placingTask : Task := { name := "B", level := .composite, childTable := [⟨"A", [⟨0, []⟩]⟩] }

def turnedProgram : Program := ⟨"B", [placingTask, { name := "A", level := .composite }]⟩

def straightProgram : Program := ⟨"B", [{ name := "A", level := .composite }, placingTask]⟩

theorem ofText_turnedText : Value.ofText? turnedText = some turnedValue := by cbv

theorem ofText_straightText : Value.ofText? straightText = some straightValue := by cbv

theorem reordered_turnedValue : turnedValue.Reordered straightValue := by
  have hb : Value.Reordered
      (.object [("tasks", .object [("A", .list [.object []])]), ("level", .text "upper")])
      (.object [("level", .text "upper"), ("tasks", .object [("A", .list [.object []])])]) :=
    .members (.swap _ _ _)
  have htasks := (hb.member "B" [] [("A", .object [("level", .text "upper")])]).trans
    (.members (.swap _ _ _))
  exact (htasks.member "tasks" [("top", .text "B")] []).trans (.members (.swap _ _ _))

theorem clear_turnedValue : Description.Clear turnedValue := by
  have hplaced : Value.ClearList Description.ClearInvocation (.list [.object []]) := by
    intro v hv
    rw [List.mem_singleton.1 hv]
    exact ⟨by decide, .null⟩
  have ha : Description.ClearTask (.object [("level", .text "upper")]) :=
    ⟨by decide +kernel, by cbv, by cbv; exact .null, by cbv; exact .null⟩
  have hb : Description.ClearTask
      (.object [("tasks", .object [("A", .list [.object []])]), ("level", .text "upper")]) :=
    ⟨by decide +kernel, by cbv, .object (by simpa using hplaced), by cbv; exact .null⟩
  exact ⟨by decide +kernel, .object (by simp [ha, hb])⟩

theorem distinct_turnedValue : turnedValue.Distinct := by
  have hdistinct : turnedValue.distinct = turnedValue := by rfl
  exact hdistinct ▸ turnedValue.distinct_distinct

theorem parse_turnedText : Description.parse .double turnedText = .ok turnedProgram :=
  Description.parse_of_ascii (by decide +kernel) (by decide +kernel)

theorem parse_straightText : Description.parse .double straightText = .ok straightProgram :=
  Description.parse_of_ascii (by decide +kernel) (by decide +kernel)

/-- A tree with a description and no sources. -/
def loneFile (text : String) : FileTree := { files := [("program.json", text)] }

theorem read_loneFile (text : String) : (loneFile text).read "program.json" = .ok text := by
  have hk : (loneFile text).key "program.json" = "program.json" := by cbv
  have hf : (loneFile text).file? "program.json" = some text := by cbv
  have hm : (loneFile text).storage = .memory := rfl
  simp [FileTree.read, FileTree.locate, hm, hk, hf]

theorem readSources_loneFile (text : String) : readSources (loneFile text) "rtl" = .ok [] := by
  have hplaces : ((loneFile text).places.filter fun p =>
      p != "rtl" && (loneFile text).key (Path.parent p) == "rtl") = [] := by
    cbv
  have hentries : (loneFile text).entries "rtl" = [] := by
    rw [FileTree.entries, hplaces]
    rfl
  have hc : Path.clean "rtl" = "rtl" := by decide
  have hj : Path.join "rtl" "." = "rtl" := by decide
  have hb : Text.beginsWith "rtl" "rtl" = true := by decide
  have hk : (loneFile text).key "rtl" = "rtl" := by cbv
  have hscan : (loneFile text).scan "rtl" sourceSuffix = [] := by
    simp [FileTree.scan, FileTree.scanFrom, hentries, hj, hk, hc, hb, Text.sorted]
  rw [readSources, hscan]
  rfl

theorem written_order_turned :
    (Value.ofText? turnedText = some turnedValue ∧ Value.ofText? straightText = some straightValue ∧
      turnedValue.Reordered straightValue ∧ turnedValue.Distinct ∧
      Description.Clear turnedValue) ∧
    Description.parse .double turnedText = .ok turnedProgram ∧
    Description.parse .double straightText = .ok straightProgram ∧
    turnedProgram ≠ straightProgram ∧ turnedProgram.Indistinguishable straightProgram ∧
    (Running.buildDesign {} "program.json" "rtl").outcome (loneFile turnedText) =
      (Running.buildDesign {} "program.json" "rtl").outcome (loneFile straightText) := by
  obtain ⟨hparse, -, hdesign⟩ := written_order_irrelevant ofText_turnedText ofText_straightText
    reordered_turnedValue distinct_turnedValue clear_turnedValue
  refine ⟨⟨ofText_turnedText, ofText_straightText, reordered_turnedValue, distinct_turnedValue,
    clear_turnedValue⟩, parse_turnedText, parse_straightText, by decide, ?_, ?_⟩
  · rcases hparse .double with ⟨p, q, hp, hq, -, hsame⟩ | ⟨e, e', he, -⟩
    · cases hp.symm.trans parse_turnedText
      cases hq.symm.trans parse_straightText
      exact hsame
    · cases he.symm.trans parse_turnedText
  · exact hdesign _ _ _ _ (read_loneFile _) (read_loneFile _)
      ((readSources_loneFile _).trans (readSources_loneFile _).symm) {}

end TaskLoom
