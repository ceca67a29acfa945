import TaskLoom.Settings.Grammar

/-!
# Bodies

A settings text is a sequence of attributes, one per line, and blocks.  The value of an attribute is
an expression.
-/

namespace TaskLoom.Settings

/-- The attributes of a text in order, and whether it has blocks. -/
structure Body where
  attributes : List (String × Formula) := []
  hasBlocks : Bool := false
  deriving Repr, Inhabited

/-- Adds an attribute; each name may be set once. -/
def Body.set? (b : Body) (name : String) (f : Formula) : Option Body :=
  if b.attributes.any (·.1 == name) then none
  else some { b with attributes := b.attributes ++ [(name, f)] }

/-- The tokens behind the end of a line. -/
def lineEnd? : List Token → Option (List Token)
  | .newline :: ts => some ts
  | [] => some []
  | _ => none

/-- The labels of a block up to its opening brace. -/
def afterLabels? : List Token → Option (List Token)
  | .symbol "\x7b" :: ts => some ts
  | .ident _ :: ts => afterLabels? ts
  | .quoted [] :: ts => afterLabels? ts
  | .quoted [.text _] :: ts => afterLabels? ts
  | _ => none

mutual

/-- The items of a body, which ends with the text or, in a block, with a closing brace. -/
def items (fuel : Nat) (inBlock : Bool) (b : Body) (ts : List Token) : Option (Body × List Token) :=
  match fuel with
  | 0 => none
  | fuel + 1 =>
    match ts with
    | [] => if inBlock then none else some (b, [])
    | .newline :: ts => items fuel inBlock b ts
    | .symbol "\x7d" :: ts => if inBlock then some (b, ts) else none
    | .ident name :: .symbol "=" :: ts => do
      let (f, ts) ← formula? fuel true ts
      let b ← b.set? name f
      items fuel inBlock b (← lineEnd? ts)
    | .ident _ :: ts => do
      let ts ← block? fuel ts
      items fuel inBlock { b with hasBlocks := true } ts
    | _ => none

/-- A block behind its type: what follows its line. -/
def block? (fuel : Nat) (ts : List Token) : Option (List Token) :=
  match fuel with
  | 0 => none
  | fuel + 1 =>
    match afterLabels? ts with
    | none => none
    | some (.ident _ :: .symbol "=" :: ts) => do
      let (_, ts) ← formula? fuel true ts
      match ts with
      | .symbol "\x7d" :: ts => lineEnd? ts
      | _ => none
    | some (.ident _ :: _) => none
    | some ts => do
      let (_, ts) ← items fuel true {} ts
      lineEnd? ts

end

/-- The body that a whole text describes. -/
def parse? (s : String) : Option Body := do
  let ts ← tokens? s
  let (b, _) ← items (16 * (s.length + 2)) false {} ts
  return b

end TaskLoom.Settings
