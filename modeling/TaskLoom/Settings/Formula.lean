import TaskLoom.Settings.Amount

/-!
# Expressions of the settings language

Literals, names, operators, functions, tuples, objects and templates; splats and loops, which work
out an expression for every item of a value.  The directives of a template become choices and loops
between its texts.
-/

namespace TaskLoom.Settings

inductive Operator where
  | or
  | and
  | eq
  | ne
  | gt
  | ge
  | lt
  | le
  | add
  | sub
  | mul
  | div
  | mod
  deriving DecidableEq, Repr

/-- The names that a loop gives to the key and to the value of an item. -/
structure LoopNames where
  key : Option String
  value : String
  deriving DecidableEq, Repr

inductive Formula where
  | null
  | bool (b : Bool)
  | number (x : Amount)
  /-- A text made of parts. -/
  | template (parts : List Formula)
  | text (s : String)
  /-- A name that stands for itself. -/
  | root (name : String)
  | member (of : Formula) (name : String)
  | index (of key : Formula)
  /-- A function on arguments; with `spreads` the last argument is a list of further ones. -/
  | call (function : String) (args : List Formula) (spreads : Bool)
  | negative (x : Formula)
  | not (x : Formula)
  | binary (op : Operator) (x y : Formula)
  | choice (cond onTrue onFalse : Formula)
  | tuple (items : List Formula)
  | object (members : List (Formula × Formula))
  | parens (x : Formula)
  /-- What `each` gives for every item of a value. -/
  | splat (of each : Formula)
  /-- The item that the innermost splat works on. -/
  | item
  /-- A tuple of what `value` gives for every item that meets a condition. -/
  | tupleFor (names : LoopNames) (source value cond : Formula)
  /-- An object of what `key` and `value` give for every item that meets a condition.  With `groups`
  a member is a tuple of all values with its key. -/
  | objectFor (names : LoopNames) (source key value : Formula) (groups : Bool) (cond : Formula)
  /-- The text that the items of a tuple make up. -/
  | joined (items : Formula)
  deriving Repr, Inhabited

/-! ### Templates -/

/-- A part of a template: an expression, or a directive. -/
inductive Part where
  | plain (f : Formula)
  | ifStart (cond : Formula)
  | elseMark
  | ifEnd
  | forStart (names : LoopNames) (source : Formula)
  | forEnd
  deriving Repr, Inhabited

/-- The formulas of parts up to the end, or up to a directive that ends what another one has
started, which stays in front of the rest. -/
def formulasIn? (fuel : Nat) (ps : List Part) : Option (List Formula × List Part) :=
  match fuel with
  | 0 => none
  | fuel + 1 =>
    let andMore (f : Formula) (ps : List Part) : Option (List Formula × List Part) :=
      (formulasIn? fuel ps).map fun (fs, rest) => (f :: fs, rest)
    match ps with
    | .plain f :: ps => andMore f ps
    | .ifStart cond :: ps => do
      let (onTrue, rest) ← formulasIn? fuel ps
      let (onFalse, rest) ← match rest with
        | .elseMark :: rest => formulasIn? fuel rest
        | rest => some ([], rest)
      match rest with
      | .ifEnd :: rest => andMore (.choice cond (.template onTrue) (.template onFalse)) rest
      | _ => none
    | .forStart names source :: ps => do
      match ← formulasIn? fuel ps with
      | (fs, .forEnd :: rest) =>
        andMore (.joined (.tupleFor names source (.template fs) (.bool true))) rest
      | _ => none
    | ps => some ([], ps)

/-- The formula of a template.  A template that is one expression has the value of that
expression. -/
def Formula.ofParts? (ps : List Part) : Option Formula :=
  match ps with
  | [] => some (.text "")
  | [.plain f] => some f
  | ps =>
    match formulasIn? (ps.length + 1) ps with
    | some (fs, []) => some (.template fs)
    | _ => none

end TaskLoom.Settings
