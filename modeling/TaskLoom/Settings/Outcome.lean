import TaskLoom.Description.Value
import TaskLoom.Settings.Operation

/-!
# Outcomes

An expression has a value even if it fails, because the two sides of a choice must agree in kind
although only one of them counts.  What fails in the other one is forgotten.
-/

namespace TaskLoom.Settings

/-- The value of an expression, and whether it failed. -/
structure Outcome where
  value : Value
  failed : Bool := false
  deriving Repr, Inhabited

namespace Outcome

/-- A failure after which only the kind is known. -/
def failure (k : Kind) : Outcome := ⟨.unknown k {}, true⟩

/-- The outcome of an operation whose operands failed or not; without a result only its kind is
known. -/
def ofOption (failed : Bool) (k : Kind) : Option Value → Outcome
  | some v => ⟨v, failed⟩
  | none => failure k

/-- The outcome of an operation that is not tried if its operands failed. -/
def guarded (failed : Bool) (k : Kind) (result : Option Value) : Outcome :=
  if failed then failure k else ofOption false k result

end Outcome

def anyFailed (os : List Outcome) : Bool := os.any Outcome.failed

/-! ### Texts -/

/-- The text of the parts so far, unless a part was unknown, and whether one failed. -/
structure Joined where
  text : String := ""
  known : Bool := true
  failed : Bool := false

/-- Adds a part.  Behind a failure nothing is added. -/
def Joined.add (j : Joined) (o : Outcome) : Joined :=
  let failed := j.failed || o.failed
  match o.value with
  | .null _ => { j with failed := true }
  | .unknown _ _ => { j with known := false, failed := failed }
  | v =>
    match v.convert? .text with
    | some (.text s) =>
      if j.known && !failed then { j with text := j.text ++ s } else { j with failed := failed }
    | _ => { j with failed := true }

/-- The text that parts make up. -/
def joinParts (parts : List Outcome) : Outcome :=
  let j := parts.foldl Joined.add {}
  ⟨if j.known then .ofText j.text else .someOf .text, j.failed⟩

/-! ### Choices -/

/-- The side of a choice that counts, brought to the common kind of both. -/
def choose (cond onTrue onFalse : Outcome) : Outcome :=
  match Value.alternatives? onTrue.value onFalse.value with
  | none => .failure .any
  | some (k, trueWay, falseWay) =>
    match cond.value with
    | .null _ => .failure k
    | .unknown _ _ => ⟨Value.either k onTrue.value onFalse.value, cond.failed⟩
    | c =>
      let follow (o : Outcome) (way : Kind.Route) : Outcome :=
        .ofOption (cond.failed || o.failed) k (o.value.follow? way)
      match c.convert? .bool with
      | some (.bool b) => if b then follow onTrue trueWay else follow onFalse falseWay
      | _ => .failure k

/-! ### Functions -/

/-- The outcome of a function; with `spreads` the last argument holds further ones. -/
def callOutcome (function : String) (args : List Outcome) (spreads : Bool) : Outcome :=
  match Value.function? function with
  | none => .failure .any
  | some f =>
    let apply (args : List Outcome) : Outcome :=
      .guarded (anyFailed args) .any (f (args.map Outcome.value))
    match if spreads then args.getLast? else none with
    | none => apply args
    | some last =>
      if last.failed then .failure .any
      else match last.value.spread? with
        | none => .failure .any
        | some none => ⟨.anything, false⟩
        | some (some vs) => apply (args.dropLast ++ vs.map (⟨·, false⟩))

/-! ### Objects -/

/-- The name that an expression stands for as the key of a member. -/
def keyName? : Formula → Option String
  | .root name => some name
  | .bool b => some (if b then "true" else "false")
  | .null => some "null"
  | _ => none

/-- Whether an expression is written down as one value. -/
def isLiteral : Formula → Bool
  | .null => true
  | .bool _ => true
  | .number _ => true
  | .text _ => true
  | _ => false

/-- Whether an expression is a name with members, or with indices that are written down. -/
def isReference : Formula → Bool
  | .root _ => true
  | .member f _ => isReference f
  | .index f key => isReference f && isLiteral key
  | _ => false

/-- The members so far; `none` if the name of one is unknown. -/
structure Gathered where
  members : Option (List (String × Value)) := some []
  failed : Bool := false

/-- Puts a member in front of others. -/
def Gathered.add (g : Gathered) (key value : Outcome) : Gathered :=
  let failed := g.failed || key.failed || value.failed
  if key.failed then ⟨none, true⟩
  else match key.value.operand? .text with
    | none => ⟨none, true⟩
    | some (.text name) => ⟨g.members.map ((name, value.value) :: ·), failed⟩
    | some _ => ⟨none, failed⟩

/-- The object of the members. -/
def Gathered.outcome (g : Gathered) : Outcome :=
  match g.members with
  | some ms => ⟨.object (byName ms), g.failed⟩
  | none => ⟨.anything, g.failed⟩

end TaskLoom.Settings
