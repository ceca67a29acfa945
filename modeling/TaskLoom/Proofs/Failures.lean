import TaskLoom.Graph.Check
import TaskLoom.Proofs.Composite.Grounds
import TaskLoom.Proofs.Description.Decoding
import TaskLoom.Proofs.Hdl.Refusal
import Mathlib.Logic.ExistsUnique

/-!
# Failures have classes

A failure comes up in one place, and what passes it on puts something before its message.  So the
message ends with the name of the class (`Kind.Ends`), and with that of no other one
(`Kind.Ends.unique`).  A failure that lists several ones has the class of one of them
(`Kind.leading?_mem`).

Main statement: whatever is read, checked or generated, a failure has a class and reports it;
reading and checking give some of the classes only (`failures_classified`).  What the failure of a
source or of a generation says is so.
-/

namespace TaskLoom

namespace Kind

variable {k k' : Kind} {message : String}

/-- How a class stands at the end of a message. -/
def tail (k : Kind) : String := ": " ++ k.text

/-- A message that names a class at its end. -/
def Ends (k : Kind) (message : String) : Prop := ∃ cause, message = cause ++ k.tail

theorem Ends.prefixed (h : k.Ends message) (context : String) : k.Ends (context ++ message) := by
  obtain ⟨cause, rfl⟩ := h
  exact ⟨context ++ cause, (String.append_assoc ..).symm⟩

theorem ends_cause (k : Kind) (cause : String) : k.Ends (cause ++ ": " ++ k.text) :=
  ⟨cause, String.append_assoc ..⟩

theorem ends_append (k : Kind) (before last : String) :
    k.Ends (before ++ (last ++ ": ") ++ k.text) :=
  ⟨before ++ last, by simp only [tail, String.append_assoc]⟩

theorem eq_of_tail_suffix (h : k.tail.toList <:+ k'.tail.toList) : k = k' := by
  cases k <;> cases k' <;> first | rfl | exact absurd h (by decide)

/-- A message names one class at most. -/
theorem Ends.unique (h : k.Ends message) (h' : k'.Ends message) : k = k' := by
  have suffix {k : Kind} (h : k.Ends message) : k.tail.toList <:+ message.toList := by
    obtain ⟨cause, rfl⟩ := h
    rw [String.toList_append]
    exact List.suffix_append ..
  rcases List.suffix_or_suffix_of_suffix (suffix h) (suffix h') with h | h
  · exact eq_of_tail_suffix h
  · exact (eq_of_tail_suffix h).symm

theorem mem_ranked (k : Kind) : k ∈ ranked := by cases k <;> decide

/-- Several classes have a leading one among them. -/
theorem leading?_mem {kinds : List Kind} (h : kinds ≠ []) :
    ∃ k ∈ kinds, leading? kinds = some k := by
  obtain ⟨k₀, hk₀⟩ := List.exists_mem_of_ne_nil kinds h
  cases hl : leading? kinds with
  | none =>
    have := List.find?_eq_none.1 hl k₀ k₀.mem_ranked
    exact absurd (List.contains_iff_mem.2 hk₀) this
  | some k => exact ⟨k, List.contains_iff_mem.1 (List.find?_some hl), rfl⟩

end Kind

/-! ### What a failure reports -/

/-- A failure of class `k` with the messages that it reports: each of them names one class, and one
of them names `k`. -/
structure Failure.Reports {ε : Type} [Failure ε] (e : ε) (k : Kind) (messages : List String) :
    Prop where
  kind : Failure.kind? e = some k
  among : ∃ message ∈ messages, k.Ends message
  named : ∀ message ∈ messages, ∃! k' : Kind, k'.Ends message

theorem Failure.Reports.single {ε : Type} [Failure ε] {e : ε} {k : Kind} {message : String}
    (h : Failure.kind? e = some k) (hends : k.Ends message) : Failure.Reports e k [message] where
  kind := h
  among := ⟨message, List.mem_singleton.2 rfl, hends⟩
  named m hm := by
    cases List.mem_singleton.1 hm
    exact ⟨k, hends, fun k' h' => h'.unique hends⟩

/-- What a failure reports that lists some issues and has the class of one of them. -/
theorem Failure.Reports.listed {ε ι : Type} [Failure ε] {e : ε} {found : List ι} (kind : ι → Kind)
    {text : ι → String} {i : ι} (hi : i ∈ found) (h : Failure.kind? e = some (kind i))
    (hends : ∀ j ∈ found, (kind j).Ends (text j)) :
    Failure.Reports e (kind i) (found.map text) where
  kind := h
  among := ⟨text i, List.mem_map_of_mem hi, hends i hi⟩
  named m hm := by
    obtain ⟨j, hj, rfl⟩ := List.mem_map.1 hm
    exact ⟨kind j, hends j hj, fun k' h' => h'.unique (hends j hj)⟩

theorem BuildError.ends (e : BuildError) : e.kind.Ends e.message := by
  cases e with
  | emptyName => exact Kind.ends_append .malformed _ " name"
  | alreadyDeclared => exact Kind.ends_append .namingCollision _ ""

theorem BuildError.kind_mem (e : BuildError) : e.kind ∈ [Kind.malformed, .namingCollision] := by
  cases e <;> simp [kind]

theorem SourceError.ends (e : SourceError) : e.kind.Ends e.message := by
  cases e with
  | «at» => exact Kind.ends_append .malformed _ ""
  | noDirection => exact Kind.ends_append .malformed _ " has no direction"
  | build e => exact e.ends

theorem SourceError.kind_mem (e : SourceError) : e.kind ∈ [Kind.malformed, .namingCollision] := by
  cases e with
  | build e => exact e.kind_mem
  | «at» | noDirection => simp [kind]

theorem UnknownCategory.ends (e : UnknownCategory) : Kind.unsupportedCategory.Ends e.message :=
  Kind.ends_append .unsupportedCategory _ ""

theorem Description.Issue.ends (i : Description.Issue) :
    Kind.unsupportedCategory.Ends i.message := by
  cases i with
  | port _ _ cause => exact cause.ends.prefixed _
  | arg _ _ _ cause => exact cause.ends.prefixed _

/-- The messages that a failing description reports: its issues one by one, or its only fault. -/
def DescriptionError.reported : DescriptionError → List String
  | .categories found => found.map Description.Issue.message
  | e => [e.message]

namespace Description

variable {e : DescriptionError}

theorem reports_unreadable (faults : List Fault) :
    ∃ k ∈ [Kind.malformed, .unsupportedCategory],
      Failure.Reports (DescriptionError.unreadable faults) k
        (DescriptionError.unreadable faults).reported :=
  ⟨.malformed, by decide, .single rfl (Kind.ends_cause .malformed "graph: <decode error>")⟩

theorem reports_toProgram {d : Description} (h : d.toProgram = .error e) :
    ∃ k ∈ [Kind.malformed, .unsupportedCategory], Failure.Reports e k e.reported := by
  unfold toProgram at h
  split at h
  · cases h
    exact ⟨.malformed, by decide,
      .single rfl (Kind.ends_cause .malformed "graph: missing top task")⟩
  split at h
  · rename_i hissues
    cases h
    obtain ⟨i, hi⟩ := List.exists_mem_of_ne_nil d.issues (by simpa using hissues)
    exact ⟨.unsupportedCategory, by decide,
      .listed (fun _ => .unsupportedCategory) hi rfl fun j _ => j.ends⟩
  · cases h

theorem reports_ofValue {v : Value} (h : ofValue v = .error e) :
    ∃ k ∈ [Kind.malformed, .unsupportedCategory], Failure.Reports e k e.reported := by
  unfold ofValue at h
  split at h
  · exact reports_toProgram h
  · cases h
    exact reports_unreadable _

theorem reports_parse {style : NumberStyle} {text : String} (h : parse style text = .error e) :
    ∃ k ∈ [Kind.malformed, .unsupportedCategory], Failure.Reports e k e.reported := by
  unfold parse at h
  split at h
  · exact reports_ofValue h
  · cases h
    exact reports_unreadable _

end Description

theorem Issue.ends (i : Issue) : i.kind.Ends i.message := Kind.ends_cause _ _

theorem Issue.kind_mem (i : Issue) : i.kind ∈ [Kind.malformed, .unsupportedCategory] := by
  cases i <;> simp [kind]

/-- The messages that a failing check reports: its issues one by one. -/
def CheckError.reported : CheckError → List String
  | .issues found => found.map Issue.message
  | e => [e.message]

theorem Program.reports_check {p : Program} {e : CheckError}
    (h : Program.check (some p) = .error e) :
    ∃ k ∈ [Kind.malformed, .unsupportedCategory], Failure.Reports e k e.reported := by
  have hcheck : (if p.issues.isEmpty then .ok () else .error (.issues p.issues)) =
      (.error e : Except CheckError Unit) := h
  split at hcheck
  · cases hcheck
  · rename_i hissues
    cases hcheck
    have hne : p.issues.map Issue.kind ≠ [] := by simpa using hissues
    obtain ⟨k, hk, hlead⟩ := Kind.leading?_mem hne
    obtain ⟨i, hi, rfl⟩ := List.mem_map.1 hk
    exact ⟨i.kind, i.kind_mem, .listed Issue.kind hi hlead fun j _ => j.ends⟩

theorem NoSuchPort.ends (e : NoSuchPort) : Kind.malformed.Ends e.message :=
  Kind.ends_append .malformed _ ""

theorem AmbiguousWidth.ends (e : AmbiguousWidth) : Kind.ambiguousWidth.Ends e.message :=
  Kind.ends_append .ambiguousWidth _ ""

theorem GraphError.ends (e : GraphError) : Kind.malformed.Ends e.message := Kind.ends_cause _ _

theorem WiringError.ends (e : WiringError) : e.kind.Ends e.message := by
  cases e with
  | build e => exact e.ends
  | port e => exact e.ends
  | reference e => exact e.ends
  | width _ _ e => exact e.ends.prefixed _
  | _ => exact Kind.ends_cause _ _

theorem ComposeError.ends (e : ComposeError) : e.kind.Ends e.message := by
  cases e with
  | reference e => exact e.ends
  | notComposite => exact Kind.ends_append .malformed _ " is not composite"
  | childWithoutModule => exact Kind.ends_append .malformed _ " has no module"
  | inTask _ e => exact e.ends.prefixed _

/-! ### All of them -/

/-- A source that cannot be read is malformed or names something twice.  A description that cannot
be read, and a program that is not accepted, is malformed or has a category that is not supported.
And if no design is generated, then for a reason of one of the classes.  What a failure reports
tells its class; the failure of a source or of a generation has its grounds there. -/
theorem failures_classified :
    (∀ text e, Source.parse text = .error e → e.Grounds text ∧
      ∃ k ∈ [Kind.malformed, .namingCollision], Failure.Reports e k [Failure.message e]) ∧
    (∀ style text e, Description.parse style text = .error e →
      ∃ k ∈ [Kind.malformed, .unsupportedCategory], Failure.Reports e k e.reported) ∧
    (∀ v e, Description.ofValue v = .error e →
      ∃ k ∈ [Kind.malformed, .unsupportedCategory], Failure.Reports e k e.reported) ∧
    (∀ p e, Program.check (some p) = .error e →
      ∃ k ∈ [Kind.malformed, .unsupportedCategory], Failure.Reports e k e.reported) ∧
    ∀ o p parts e, (generate o p parts).result = .error e →
      e.Grounds o p (generate o p parts).parts ∧
        ∃ k ∈ Kind.ranked, Failure.Reports e k [Failure.message e] :=
  ⟨fun _ e h => ⟨Source.grounds_of_parse h, e.kind, e.kind_mem, .single rfl e.ends⟩,
    fun _ _ _ h => Description.reports_parse h, fun _ _ h => Description.reports_ofValue h,
    fun _ _ h => Program.reports_check h,
    fun _ _ _ e h => ⟨grounds_of_generate h, e.kind, e.kind.mem_ranked, .single rfl e.ends⟩⟩

theorem exists_failure {ε α : Type} [Failure ε] {r : Except ε α} {k : Kind}
    (h : (match r with | .ok _ => none | .error e => Failure.kind? e) = some k) :
    ∃ e, r = .error e ∧ Failure.kind? e = some k := by
  cases r with
  | ok a => cases h
  | error e => exact ⟨e, rfl, h⟩

theorem Failure.Reports.of_kind {ε : Type} [Failure ε] {e : ε} {k : Kind} {kinds : List Kind}
    {messages : List String} (h : ∃ k ∈ kinds, Failure.Reports e k messages)
    (hk : Failure.kind? e = some k) : Failure.Reports e k messages := by
  obtain ⟨k', -, hr⟩ := h
  exact Option.some.inj (hr.kind.symm.trans hk) ▸ hr

/-- A composite with one instance, whose argument is as wide as a parameter says. -/
def vagueProgram : Program where
  top := "Top"
  taskTable := [{ name := "A", level := .leaf },
    { name := "Top", level := .composite, childTable := [⟨"A", [⟨0, [⟨"n", .scalar, "n"⟩]⟩]⟩] }]

def vagueParts : Parts where
  modules := [("A", { name := "A", ports := basePorts ++ [⟨"n", .input, some ⟨"W - 1", "0"⟩⟩] })]

/-- A description with a port of category `bus`. -/
def busText : String :=
  "\x7b\"tasks\":\x7b\"T\":\x7b\"ports\":[\x7b\"cat\":\"bus\",\"name\":\"p\"\x7d]\x7d\x7d," ++
  "\"top\":\"T\"\x7d"

theorem parse_busText : Description.parse .source busText =
    .error (.categories [.port "T" "p" ⟨"bus"⟩]) :=
  Description.parse_of_ascii (by decide +kernel) (by decide +kernel)

theorem failures_classified_each :
    (∃ e, Source.parse "module m(input a, a); endmodule" = .error e ∧
      Failure.Reports e .namingCollision [Failure.message e]) ∧
    (∃ e, Description.parse .source busText = .error e ∧
      Failure.Reports e .unsupportedCategory e.reported) ∧
    (∃ e, Program.check (some { top := "t" }) = .error e ∧
      Failure.Reports e .malformed e.reported) ∧
    ∃ e, (generate {} vagueProgram vagueParts).result = .error e ∧
      Failure.Reports e .ambiguousWidth [Failure.message e] := by
  obtain ⟨hsource, hparse, -, hcheck, hgenerate⟩ := failures_classified
  refine ⟨?_, ⟨_, parse_busText, .of_kind (hparse _ _ _ parse_busText) rfl⟩, ?_, ?_⟩
  · obtain ⟨e, he, hk⟩ := exists_failure (r := Source.parse "module m(input a, a); endmodule")
      (k := .namingCollision) (by decide +kernel)
    exact ⟨e, he, .of_kind (hsource _ e he).2 hk⟩
  · obtain ⟨e, he, hk⟩ := exists_failure (r := Program.check (some { top := "t" }))
      (k := .malformed) (by decide +kernel)
    exact ⟨e, he, .of_kind (hcheck _ e he) hk⟩
  · obtain ⟨e, he, hk⟩ := exists_failure (r := (generate {} vagueProgram vagueParts).result)
      (k := .ambiguousWidth) (by decide +kernel)
    exact ⟨e, he, .of_kind (hgenerate _ _ _ e he).2 hk⟩

end TaskLoom
