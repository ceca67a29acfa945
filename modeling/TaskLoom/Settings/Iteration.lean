import TaskLoom.Settings.Outcome

/-!
# Working on every item

A splat works out one expression for every item of a value; a value that has no items counts as one
item.  A loop does so with names for the items, and leaves out those that do not meet a condition.
If it cannot be said what becomes of one item, it cannot be said what becomes of the whole.
-/

namespace TaskLoom.Settings

/-! ### Splats -/

/-- The kind of a splat on a sequence of a kind, and whether `each` fails on items of which only the
kind is known. -/
def splatKind (each : Value → Outcome) (k : Kind) : Kind × Bool :=
  let os := k.parts.map fun k => each (.unknown k {})
  let kinds := os.map fun o => o.value.kind
  (if k.isList then .list (kinds.headD .any) else .tuple kinds, anyFailed os)

/-- A splat on a sequence of known length. -/
def splatItems (each : Value → Outcome) (k : Kind) (items : List Value) : Outcome :=
  let os := items.map each
  let values := os.map Outcome.value
  if anyFailed os then .failure (splatKind each k).1
  else if k.isTuple then ⟨.tuple values, false⟩
  else if items.isEmpty then
    let (found, failed) := splatKind each k
    ⟨.list (found.parts.headD .any) [], failed⟩
  else ⟨.listOf values, false⟩

/-- What `each` gives for every item of a value. -/
def splat (each : Value → Outcome) (v : Value) : Outcome :=
  let isSequence := v.kind.isTuple || v.kind.isList
  match v with
  | .null _ => if isSequence then .failure .any else ⟨.tuple [], false⟩
  | .unknown .any _ => ⟨.anything, false⟩
  | .unknown k b =>
    if isSequence then
      let (found, failed) := splatKind each k
      let bounds : Bounds :=
        { present := true, minLength := b.minLength, maxLength := b.maxLength }
      ⟨.within found bounds, failed⟩
    else
      let o := splatItems each (.tuple [k]) [v]
      if b.present then o else ⟨.anything, o.failed⟩
  | .tuple vs => splatItems each v.kind vs
  | .list _ vs => splatItems each v.kind vs
  | v => splatItems each (.tuple [v.kind]) [v]

/-! ### Loops -/

/-- The keys and the values of the items that a loop runs over; positions are keys, too. -/
def loopItems : Value → List (Value × Value)
  | .tuple vs => vs.zipIdx.map fun (v, i) => (.number (.ofPosition i), v)
  | .list _ vs => vs.zipIdx.map fun (v, i) => (.number (.ofPosition i), v)
  | .map _ ms => ms.map fun (name, v) => (.text name, v)
  | .object ms => ms.map fun (name, v) => (.text name, v)
  | _ => []

/-- What a loop has made of the items so far. -/
structure Loop (α : Type) where
  made : α
  /-- Whether it is known what becomes of the items. -/
  known : Bool := true
  failed : Bool := false

namespace Loop

variable {α : Type}

/-- Goes on without an item, of which it is not known what becomes of it.  That is a failure, unless
as little was known before. -/
def lose (l : Loop α) (isFailure : Bool) : Loop α :=
  { l with known := false, failed := l.failed || (isFailure && l.known) }

/-- Takes the failure of an outcome along. -/
def after (l : Loop α) (o : Outcome) : Loop α := { l with failed := l.failed || o.failed }

/-- Goes on with an item that meets a condition. -/
def provided (l : Loop α) (cond : Outcome) (next : Loop α → Loop α) : Loop α :=
  let l := l.after cond
  if cond.value.isNull then l.lose true
  else match cond.value.convert? .bool with
    | none => l.lose true
    | some (.bool b) => if b then next l else l
    | some _ => l.lose false

/-- Goes on with the name that a key stands for. -/
def named (l : Loop α) (key : Outcome) (next : Loop α → String → Loop α) : Loop α :=
  let l := l.after key
  if key.value.isNull then l.lose true
  else if key.value.isUnknown then l.lose false
  else match key.value.convert? .text with
    | some (.text name) => next l name
    | _ => l.lose true

/-- The outcome of a loop. -/
def outcome (result : α → Value) (l : Loop α) : Outcome :=
  ⟨if l.known then result l.made else .anything, l.failed⟩

end Loop

/-- Adds a value to the members of an object, each of which holds the values with its name.  Unless
they are grouped, a name may come once. -/
def addMember (groups : Bool) (l : Loop (List (String × List Value))) (name : String)
    (o : Outcome) : Loop (List (String × List Value)) :=
  let l := l.after o
  if !l.made.any (·.1 == name) then { l with made := l.made ++ [(name, [o.value])] }
  else if groups then
    { l with made := l.made.map fun (n, vs) => if n == name then (n, vs ++ [o.value]) else (n, vs) }
  else { l with failed := true }

/-- The object of gathered members. -/
def memberObject (groups : Bool) (ms : List (String × List Value)) : Value :=
  .object (byName (ms.map fun (name, vs) =>
    (name, if groups then .tuple vs else vs.headD .anything)))

/-- Runs a loop over an outcome.  First the condition is tried on an item of which nothing is known:
if that fails, so does the loop. -/
def runLoop {α : Type} (source : Outcome) (cond : Value → Value → Outcome) (start : α)
    (step : Loop α → Value → Value → Loop α) (result : α → Value) : Outcome :=
  let k := source.value.kind
  let trial := cond .anything .anything
  if source.value.isNull then .failure .any
  else if k.isAny then ⟨.anything, source.failed⟩
  else if !(k.isList || k.isMap || k.isTuple || k.isObject) then .failure .any
  else if source.value.isUnknown then ⟨.anything, source.failed⟩
  else if trial.failed || trial.value.isNull || (trial.value.convert? .bool).isNone then
    .failure .any
  else
    let run (l : Loop α) (item : Value × Value) : Loop α :=
      l.provided (cond item.1 item.2) fun l => step l item.1 item.2
    ((loopItems source.value).foldl run { made := start, failed := source.failed }).outcome result

/-- The text that the items of a tuple make up. -/
def joinItems (o : Outcome) : Outcome :=
  match o.value with
  | .tuple vs =>
    if vs.any Value.isUnknown then ⟨.unknown .text {}, o.failed⟩
    else
      let j := joinParts (vs.map (⟨·, false⟩))
      ⟨j.value, o.failed || j.failed⟩
  | _ => ⟨.unknown .text {}, o.failed⟩

end TaskLoom.Settings
