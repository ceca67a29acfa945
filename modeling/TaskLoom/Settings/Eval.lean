import TaskLoom.Settings.Iteration

/-!
# Evaluating settings

What an expression gives in a scope.  The outermost scope has one name, for the variables; loops
give names to their items, and an inner name hides an outer one.
-/

namespace TaskLoom.Settings

/-- What names stand for, and the item that the innermost splat works on. -/
structure Scope where
  /-- Names with their values, the innermost first. -/
  names : List (String × Value)
  item : Value := .anything

namespace Scope

/-- The variables as members of one object. -/
def varsObject (vars : List (String × String)) : Value :=
  .object (byName (vars.map fun (name, s) => (Text.canonical name, .ofText s)))

/-- The outermost scope. -/
def ofVars (vars : List (String × String)) : Scope := ⟨[("var", varsObject vars)], .anything⟩

def find? (s : Scope) (name : String) : Option Value :=
  (s.names.find? (·.1 == name)).map Prod.snd

/-- The scope inside a loop, for an item with its key. -/
def enter (s : Scope) (names : LoopNames) (key value : Value) : Scope :=
  let keys := names.key.toList.map (·, key)
  { s with names := (names.value, value) :: (keys ++ s.names) }

end Scope

mutual

/-- The outcome of an expression in a scope. -/
def eval (scope : Scope) : Formula → Outcome
  | .null => ⟨.null .any, false⟩
  | .bool b => ⟨.bool b, false⟩
  | .number x => ⟨.number x, false⟩
  | .text s => ⟨.ofText s, false⟩
  | .template parts => joinParts (evalAll scope parts)
  | .root name => .ofOption false .any (scope.find? name)
  | .member f name =>
    let o := eval scope f
    .ofOption o.failed .any (o.value.member? name)
  | .index f key =>
    let o := eval scope f
    let k := eval scope key
    .ofOption (o.failed || k.failed) .any (o.value.item? k.value)
  | .call function args spreads => callOutcome function (evalAll scope args) spreads
  | .negative f =>
    let o := eval scope f
    .guarded o.failed .number o.value.negative?
  | .not f =>
    let o := eval scope f
    .guarded o.failed .bool o.value.not?
  | .binary op f g =>
    let x := eval scope f
    let y := eval scope g
    .guarded (x.failed || y.failed) op.kind (op.combine? x.value y.value)
  | .choice cond f g => choose (eval scope cond) (eval scope f) (eval scope g)
  | .tuple fs =>
    let os := evalAll scope fs
    ⟨.tuple (os.map Outcome.value), anyFailed os⟩
  | .object ms => (evalMembers scope ms).outcome
  | .parens f => eval scope f
  | .splat f each =>
    let o := eval scope f
    if o.failed then .failure .any else splat (fun v => eval { scope with item := v } each) o.value
  | .item => ⟨scope.item, false⟩
  | .tupleFor names source value cond =>
    let inside (f : Scope → Outcome) (k v : Value) : Outcome := f (scope.enter names k v)
    runLoop (eval scope source) (inside (eval · cond)) []
      (fun l k v =>
        let o := inside (eval · value) k v
        { l.after o with made := l.made ++ [o.value] })
      .tuple
  | .objectFor names source key value groups cond =>
    let inside (f : Scope → Outcome) (k v : Value) : Outcome := f (scope.enter names k v)
    runLoop (eval scope source) (inside (eval · cond)) []
      (fun l k v =>
        l.named (inside (eval · key) k v) fun l name =>
          addMember groups l name (inside (eval · value) k v))
      (memberObject groups)
  | .joined f => joinItems (eval scope f)

def evalAll (scope : Scope) : List Formula → List Outcome
  | [] => []
  | f :: fs => eval scope f :: evalAll scope fs

/-- The members of an object.  A name as a key stands for itself, and a name with members or indices
is no key. -/
def evalMembers (scope : Scope) : List (Formula × Formula) → Gathered
  | [] => {}
  | (key, f) :: ms =>
    let name := match keyName? key with
      | some name => ⟨.ofText name, false⟩
      | none => if isReference key then .failure .any else eval scope key
    (evalMembers scope ms).add name (eval scope f)

end

end TaskLoom.Settings
