import TaskLoom.Settings.Formula
import TaskLoom.Settings.Layout

/-!
# The grammar of expressions

Readers take tokens and give what they have read together with the tokens behind it.  Line ends
separate attributes and members, and carry no meaning inside parentheses, brackets and templates.
-/

namespace TaskLoom.Settings

/-- The operators by precedence, those that bind weakest first. -/
def operatorLevels : List (List (String × Operator)) :=
  [[("||", .or)],
   [("&&", .and)],
   [("==", .eq), ("!=", .ne)],
   [(">", .gt), (">=", .ge), ("<", .lt), ("<=", .le)],
   [("+", .add), ("-", .sub)],
   [("*", .mul), ("/", .div), ("%", .mod)]]

def Token.isNewline : Token → Bool
  | .newline => true
  | _ => false

/-- The tokens that a reader sees: line ends only where they carry meaning. -/
def seen (lines : Bool) (ts : List Token) : List Token :=
  if lines then ts else ts.dropWhile Token.isNewline

/-- The operator at the front of the tokens, if it is one of a level. -/
def operator? (level : List (String × Operator)) : List Token → Option (Operator × List Token)
  | .symbol s :: ts => (level.find? (·.1 == s)).map fun (_, op) => (op, ts)
  | _ => none

/-- The member, or the written position, behind a point. -/
def member? (lines : Bool) (x : Formula) (ts : List Token) : Option (Formula × List Token) :=
  match seen lines ts with
  | .ident name :: ts => some (.member x name, ts)
  | .number s :: ts =>
    if s.toList.contains '.' then none
    else (Amount.ofText? s).map fun n => (.index x (.number n), ts)
  | _ => none

/-- The names of a loop, up to the word `in`. -/
def loopNames? (ts : List Token) : Option (LoopNames × List Token) := do
  let name? (ts : List Token) : Option (String × List Token) :=
    match seen false ts with
    | .ident name :: ts => some (name, ts)
    | _ => none
  let (first, ts) ← name? ts
  let (names, ts) ← match seen false ts with
    | .symbol "," :: ts => (name? ts).map fun (second, ts) => (⟨some first, second⟩, ts)
    | ts => some (⟨none, first⟩, ts)
  match seen false ts with
  | .ident "in" :: ts => return (names, ts)
  | _ => none

/-! ### Expressions

All readers take the fuel that bounds their steps, and whether line ends carry meaning. -/

/-- Members and written positions behind `x`. -/
def members? (fuel : Nat) (lines : Bool) (x : Formula) (ts : List Token) :
    Option (Formula × List Token) :=
  match fuel with
  | 0 => none
  | fuel + 1 =>
    match seen lines ts with
    | .symbol "." :: ts =>
      match member? lines x ts with
      | some (x, ts) => members? fuel lines x ts
      | none => none
    | _ => some (x, ts)

mutual

/-- An expression. -/
def formula? (fuel : Nat) (lines : Bool) (ts : List Token) : Option (Formula × List Token) :=
  match fuel with
  | 0 => none
  | fuel + 1 => do
    let (cond, ts) ← binary? fuel lines operatorLevels ts
    match seen lines ts with
    | .symbol "?" :: ts =>
      let (onTrue, ts) ← formula? fuel lines ts
      match seen lines ts with
      | .symbol ":" :: ts =>
        let (onFalse, ts) ← formula? fuel lines ts
        return (.choice cond onTrue onFalse, ts)
      | _ => none
    | _ => return (cond, ts)

/-- Operands joined by the operators of the given levels. -/
def binary? (fuel : Nat) (lines : Bool) (levels : List (List (String × Operator)))
    (ts : List Token) : Option (Formula × List Token) :=
  match fuel with
  | 0 => none
  | fuel + 1 =>
    match levels with
    | [] => operand? fuel lines ts
    | level :: tighter => do
      let (x, ts) ← binary? fuel lines tighter ts
      binaryRest? fuel lines level tighter x ts

/-- Further operands of one level behind `x`. -/
def binaryRest? (fuel : Nat) (lines : Bool) (level : List (String × Operator))
    (tighter : List (List (String × Operator))) (x : Formula) (ts : List Token) :
    Option (Formula × List Token) :=
  match fuel with
  | 0 => none
  | fuel + 1 =>
    match operator? level (seen lines ts) with
    | none => some (x, ts)
    | some (op, ts) => do
      let (y, ts) ← binary? fuel lines tighter ts
      binaryRest? fuel lines level tighter (.binary op x y) ts

/-- A term with its members and indices. -/
def operand? (fuel : Nat) (lines : Bool) (ts : List Token) : Option (Formula × List Token) :=
  match fuel with
  | 0 => none
  | fuel + 1 => do
    let (x, ts) ← term? fuel lines ts
    steps? fuel lines x ts

/-- Members, indices and splats behind `x`.  A splat `.*` works out the members behind it for every
item, and a splat `[*]` everything that is behind it. -/
def steps? (fuel : Nat) (lines : Bool) (x : Formula) (ts : List Token) :
    Option (Formula × List Token) :=
  match fuel with
  | 0 => none
  | fuel + 1 =>
    match seen lines ts with
    | .symbol "." :: ts =>
      match seen lines ts with
      | .symbol "*" :: ts => do
        let (each, ts) ← members? fuel lines .item ts
        steps? fuel lines (.splat x each) ts
      | ts => do
        let (x, ts) ← member? lines x ts
        steps? fuel lines x ts
    | .symbol "[" :: ts =>
      match seen lines ts with
      | .symbol "*" :: ts =>
        match seen lines ts with
        | .symbol "]" :: ts => do
          let (each, ts) ← steps? fuel lines .item ts
          return (.splat x each, ts)
        | _ => none
      | ts => do
        let (key, ts) ← formula? fuel false ts
        match seen false ts with
        | .symbol "]" :: ts => steps? fuel lines (.index x key) ts
        | _ => none
    | _ => some (x, ts)

/-- A term without members and indices. -/
def term? (fuel : Nat) (lines : Bool) (ts : List Token) : Option (Formula × List Token) :=
  match fuel with
  | 0 => none
  | fuel + 1 =>
    match seen lines ts with
    | .number s :: ts => (Amount.ofText? s).map fun n => (.number n, ts)
    | .quoted pieces :: ts => (template? fuel (laidOut false pieces)).map fun f => (f, ts)
    | .lines pieces dropsIndent :: ts =>
      (template? fuel (laidOut dropsIndent pieces)).map fun f => (f, ts)
    | .ident name :: ts =>
      match seen lines ts with
      | .symbol "(" :: ts => call? fuel name ts
      | .symbol "::" :: ts => scoped? fuel lines name ts
      | _ =>
        some (if name == "true" then .bool true else if name == "false" then .bool false
          else if name == "null" then .null else .root name, ts)
    | .symbol "(" :: ts => do
      let (x, ts) ← formula? fuel false ts
      match seen false ts with
      | .symbol ")" :: ts => return (.parens x, ts)
      | _ => none
    | .symbol "-" :: ts => (operand? fuel lines ts).map fun (x, ts) => (.negative x, ts)
    | .symbol "!" :: ts => (operand? fuel lines ts).map fun (x, ts) => (.not x, ts)
    | .symbol "[" :: ts =>
      match seen false ts with
      | .ident "for" :: ts => loop? fuel false ts
      | ts => (items? fuel "]" ts).map fun (xs, _, ts) => (.tuple xs, ts)
    | .symbol "\x7b" :: ts =>
      match seen false ts with
      | .ident "for" :: ts => loop? fuel true ts
      | _ => (objectMembers? fuel ts).map fun (ms, ts) => (.object ms, ts)
    | _ => none

/-- A function of a scope, which is behind `::`. -/
def scoped? (fuel : Nat) (lines : Bool) (name : String) (ts : List Token) :
    Option (Formula × List Token) :=
  match fuel with
  | 0 => none
  | fuel + 1 =>
    match seen lines ts with
    | .ident inner :: ts =>
      match seen lines ts with
      | .symbol "(" :: ts => call? fuel (name ++ "::" ++ inner) ts
      | .symbol "::" :: ts => scoped? fuel lines (name ++ "::" ++ inner) ts
      | _ => none
    | _ => none

/-- A function behind its opening parenthesis. -/
def call? (fuel : Nat) (name : String) (ts : List Token) : Option (Formula × List Token) :=
  match fuel with
  | 0 => none
  | fuel + 1 => (items? fuel ")" ts).map fun (xs, spreads, ts) => (.call name xs spreads, ts)

/-- Expressions with commas between them up to a closing symbol; a comma may stand behind the last
one, and so may, in parentheses, an ellipsis. -/
def items? (fuel : Nat) (closing : String) (ts : List Token) :
    Option (List Formula × Bool × List Token) :=
  match fuel with
  | 0 => none
  | fuel + 1 =>
    match seen false ts with
    | .symbol s :: rest =>
      if s == closing then some ([], false, rest) else moreItems? fuel closing (.symbol s :: rest)
    | ts => moreItems? fuel closing ts

/-- At least one expression up to a closing symbol. -/
def moreItems? (fuel : Nat) (closing : String) (ts : List Token) :
    Option (List Formula × Bool × List Token) :=
  match fuel with
  | 0 => none
  | fuel + 1 => do
    let (x, ts) ← formula? fuel false ts
    match seen false ts with
    | .symbol "," :: ts =>
      (items? fuel closing ts).map fun (xs, spreads, ts) => (x :: xs, spreads, ts)
    | .symbol "..." :: ts =>
      match seen false ts with
      | .symbol s :: ts => if closing == ")" && s == ")" then some ([x], true, ts) else none
      | _ => none
    | .symbol s :: ts => if s == closing then some ([x], false, ts) else none
    | _ => none

/-- The members of an object up to its closing brace, with commas or line ends between them. -/
def objectMembers? (fuel : Nat) (ts : List Token) :
    Option (List (Formula × Formula) × List Token) :=
  match fuel with
  | 0 => none
  | fuel + 1 =>
    match ts with
    | .newline :: ts => objectMembers? fuel ts
    | .symbol "\x7d" :: ts => some ([], ts)
    | ts => do
      let (key, ts) ← formula? fuel true ts
      let ts ← match ts with
        | .symbol "=" :: ts => some ts
        | .symbol ":" :: ts => some ts
        | _ => none
      let (value, ts) ← formula? fuel true ts
      match ts with
      | .symbol "\x7d" :: ts => return ([(key, value)], ts)
      | .symbol "," :: ts => (objectMembers? fuel ts).map fun (ms, ts) => ((key, value) :: ms, ts)
      | .newline :: ts => (objectMembers? fuel ts).map fun (ms, ts) => ((key, value) :: ms, ts)
      | _ => none

/-- A loop behind the word `for`, up to the symbol that closes its tuple or object. -/
def loop? (fuel : Nat) (isObject : Bool) (ts : List Token) : Option (Formula × List Token) :=
  match fuel with
  | 0 => none
  | fuel + 1 => do
    let (names, ts) ← loopNames? ts
    let (source, ts) ← formula? fuel false ts
    let (first, ts) ← match seen false ts with
      | .symbol ":" :: ts => formula? fuel false ts
      | _ => none
    let (second, ts) ← match seen false ts with
      | .symbol "=>" :: ts => (formula? fuel false ts).map fun (x, ts) => (some x, ts)
      | ts => some (none, ts)
    let (groups, ts) := match seen false ts with
      | .symbol "..." :: ts => (true, ts)
      | ts => (false, ts)
    let (cond, ts) ← match seen false ts with
      | .ident "if" :: ts => formula? fuel false ts
      | ts => some (.bool true, ts)
    match isObject, second, seen false ts with
    | true, some value, .symbol "\x7d" :: ts =>
      return (.objectFor names source first value groups cond, ts)
    | false, none, .symbol "]" :: ts =>
      if groups then none else return (.tupleFor names source first cond, ts)
    | _, _, _ => none

/-- The formula of a template. -/
def template? (fuel : Nat) (pieces : List Piece) : Option Formula :=
  match fuel with
  | 0 => none
  | fuel + 1 => (parts? fuel pieces).bind Formula.ofParts?

/-- The parts of a template. -/
def parts? (fuel : Nat) (pieces : List Piece) : Option (List Part) :=
  match fuel with
  | 0 => none
  | fuel + 1 =>
    match pieces with
    | [] => some []
    | .text s :: ps => (parts? fuel ps).map (.plain (.text s) :: ·)
    | .inner isDirective ts _ _ :: ps => do
      let part ← if isDirective then directive? fuel ts
        else (whole? fuel ts).map fun x => .plain (.parens x)
      return part :: (← parts? fuel ps)

/-- A directive of a template. -/
def directive? (fuel : Nat) (ts : List Token) : Option Part :=
  match fuel with
  | 0 => none
  | fuel + 1 =>
    let mark (p : Part) (ts : List Token) : Option Part :=
      if (seen false ts).isEmpty then some p else none
    match seen false ts with
    | .ident "if" :: ts => (whole? fuel ts).map .ifStart
    | .ident "else" :: ts => mark .elseMark ts
    | .ident "endif" :: ts => mark .ifEnd ts
    | .ident "for" :: ts => do
      let (names, ts) ← loopNames? ts
      return .forStart names (← whole? fuel ts)
    | .ident "endfor" :: ts => mark .forEnd ts
    | _ => none

/-- An expression that takes up all tokens. -/
def whole? (fuel : Nat) (ts : List Token) : Option Formula :=
  match fuel with
  | 0 => none
  | fuel + 1 =>
    match formula? fuel false ts with
    | some (x, rest) => if (seen false rest).isEmpty then some x else none
    | none => none

end

end TaskLoom.Settings
