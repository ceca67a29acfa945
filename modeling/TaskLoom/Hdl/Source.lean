import TaskLoom.Hdl.Module
import TaskLoom.Hdl.Token

/-!
# The interfaces in a Verilog source

A source is read for the ports and parameters of its modules.  Ports are declared in the header
itself or by declarations in the body; everything else in a body is skipped.  Each module keeps its
own piece of the source.
-/

namespace TaskLoom

/-- What is wrong at some place of a source. -/
inductive Complaint where
  | expected (what : String) (found : List UInt8)
  | moduleName (found : List UInt8)
  | paramName (found : List UInt8)
  | missingEnd (module : String)
  | notInPortList (module : String) (found : List UInt8)
  | openPortList
  | strayInPortList (found : List UInt8)
  | rangeWithoutColon
  | openRange
  deriving DecidableEq, Repr

def Complaint.message : Complaint → String
  | .expected what found => s!"expected {Text.quote what}, found {Text.quoteBytes found}"
  | .moduleName found => s!"expected module name, found {Text.quoteBytes found}"
  | .paramName found => s!"expected parameter name, found {Text.quoteBytes found}"
  | .missingEnd m => s!"module {m}: missing endmodule"
  | .notInPortList m found => s!"module {m}: {Text.ofBytes found} is not in the port list"
  | .openPortList => "unterminated port list"
  | .strayInPortList found => s!"unexpected {Text.quoteBytes found} in port list"
  | .rangeWithoutColon => "range without ':'"
  | .openRange => "unterminated range"

/-- Why a source cannot be read. -/
inductive SourceError where
  | at (line : Nat) (what : Complaint)
  | noDirection (module port : String)
  | build (e : BuildError)
  deriving DecidableEq, Repr

def SourceError.kind : SourceError → Kind
  | .build e => e.kind
  | _ => .malformed

def SourceError.message : SourceError → String
  | .at line what => s!"verilog: line {line}: {what.message}: {Kind.malformed.text}"
  | .noDirection m p => s!"verilog: module {m}: port {p} has no direction: {Kind.malformed.text}"
  | .build e => e.message

instance : Failure SourceError := ⟨fun e => some e.kind, SourceError.message⟩

namespace Source

/-- A complaint and the tokens that were left when it came up. -/
structure Stop where
  what : Complaint
  rest : List Token

/-- A reader consumes tokens from the front of a list. -/
abbrev Reader (α : Type) := List Token → Except Stop (α × List Token)

/-- The line of the first token that is left; the first line if there is none. -/
def lineOf (clean : List UInt8) : List Token → Nat
  | [] => 1
  | t :: _ => 1 + (clean.take t.offset).count newline

def Stop.toError (clean : List UInt8) (s : Stop) : SourceError := .at (lineOf clean s.rest) s.what

/-- The text of the first token; empty at the end. -/
def headText : List Token → String
  | [] => ""
  | t :: _ => t.text

/-- Consumes one token of the given text. -/
def expect (want : String) : Reader Unit
  | [] => .error ⟨.expected want [], []⟩
  | t :: ts => if t.text == want then .ok ((), ts) else .error ⟨.expected want t.bytes, ts⟩

/-- Words that are no names although they look like ones. -/
def reservedWords : List String :=
  ["input", "output", "inout", "wire", "reg", "parameter", "localparam", "module", "endmodule"]

/-- Words that may stand between a direction or a parameter keyword and the range. -/
def typeWords : List String :=
  ["wire", "reg", "logic", "signed", "unsigned", "integer", "real", "time", "tri"]

/-- Whether a token is a name: a word that starts with a letter or an underscore, or an escaped
identifier. -/
def Token.isName (t : Token) : Bool :=
  match t.bytes with
  | [] => false
  | b :: _ =>
    (b == ascii '_' || b == ascii '\\' || (97 ≤ b && b ≤ 122) || (65 ≤ b && b ≤ 90)) &&
      !reservedWords.contains t.text

def direction? (word : String) : Option Direction :=
  if word == "input" then some .input
  else if word == "output" then some .output
  else if word == "inout" then some .inout
  else none

/-! ### Ranges and values -/

/-- The source from the first to the last of some tokens, without blanks around it. -/
def spanText (clean : List UInt8) (ts : List Token) : String :=
  match ts.head?, ts.getLast? with
  | some a, some b =>
    Text.trim (Text.ofBytes
      ((clean.drop a.offset).take (b.offset + b.bytes.length - a.offset)))
  | _, _ => ""

def opens (word : String) : Bool := word == "(" || word == "[" || word == "\x7b"

def closes (word : String) : Bool := word == ")" || word == "]" || word == "\x7d"

/-- The tokens of a value up to a comma, semicolon or closing bracket that is not inside brackets
of the value itself. -/
def takeValue (depth : Nat) : List Token → List Token × List Token
  | [] => ([], [])
  | t :: ts =>
    let go (d : Nat) := let (value, rest) := takeValue d ts; (t :: value, rest)
    if opens t.text then go (depth + 1)
    else if closes t.text then if depth = 0 then ([], t :: ts) else go (depth - 1)
    else if (t.text == "," || t.text == ";") && depth = 0 then ([], t :: ts)
    else go depth

/-- The bounds of a range after its opening bracket.  `msb` and `lsb` hold the tokens of the two
bounds so far, the last one first; there is no `lsb` before the colon. -/
def rangeBounds (clean : List UInt8) (depth : Int) (msb : List Token) (lsb : Option (List Token)) :
    Reader BitRange
  | [] => .error ⟨.openRange, []⟩
  | t :: ts =>
    let word := t.text
    if word == "]" && depth ≤ 0 then
      match lsb with
      | none => .error ⟨.rangeWithoutColon, t :: ts⟩
      | some lsb => .ok (⟨spanText clean msb.reverse, spanText clean lsb.reverse⟩, ts)
    else if word == ":" && depth == 0 && lsb.isNone then rangeBounds clean depth msb (some []) ts
    else
      let depth' := if opens word then depth + 1 else if closes word then depth - 1 else depth
      match lsb with
      | none => rangeBounds clean depth' (t :: msb) none ts
      | some lsb => rangeBounds clean depth' msb (some (t :: lsb)) ts

/-- A range, if the next token opens one. -/
def range (clean : List UInt8) : Reader (Option BitRange)
  | [] => .ok (none, [])
  | t :: ts =>
    if t.text == "[" then do
      let (r, ts) ← rangeBounds clean 0 [] none ts
      return (some r, ts)
    else .ok (none, t :: ts)

/-- Words for a type, then a range. -/
def typeAndRange (clean : List UInt8) : Reader (Option BitRange) := fun ts =>
  range clean (ts.dropWhile fun t => typeWords.contains t.text)

/-! ### Parameters -/

/-- The assignments `A = x, B = y` behind one keyword.  In a header the list ends before a comma
that is followed by the next `parameter` keyword. -/
def assignments (clean : List UInt8) (header isLocal : Bool) (range : Option BitRange) :
    Nat → Reader (List Param)
  | 0, ts => .ok ([], ts)
  | _ + 1, [] => .error ⟨.paramName [], []⟩
  | fuel + 1, t :: ts =>
    if !t.isName then .error ⟨.paramName t.bytes, ts⟩
    else do
      let ((), ts) ← expect "=" ts
      let (value, ts) := takeValue 0 ts
      let p : Param := ⟨t.text, spanText clean value, range, isLocal⟩
      if headText ts != "," || (header && headText (ts.drop 1) == "parameter") then
        return ([p], ts)
      let (ps, ts) ← assignments clean header isLocal range fuel (ts.drop 1)
      return (p :: ps, ts)

/-- A parameter declaration; in a header its keyword may be missing. -/
def paramGroup (clean : List UInt8) (header : Bool) : Reader (List Param) := fun ts => do
  let word := headText ts
  let ts := if word == "parameter" || word == "localparam" then ts.drop 1 else ts
  let (range, ts) ← typeAndRange clean ts
  assignments clean header (word == "localparam") range (ts.length + 1) ts

/-- The parameter declarations of a header up to its closing parenthesis. -/
def headerParams (clean : List UInt8) : Nat → Reader (List Param)
  | 0, ts => .ok ([], ts)
  | fuel + 1, ts =>
    let word := headText ts
    if word == ")" || ts.isEmpty then .ok ([], ts)
    else if word == "," then headerParams clean fuel (ts.drop 1)
    else do
      let (ps, ts) ← paramGroup clean true ts
      let (qs, ts) ← headerParams clean fuel ts
      return (ps ++ qs, ts)

/-- The parameter list `#( … )` of a header, if there is one. -/
def paramList (clean : List UInt8) : Reader (List Param) := fun ts => do
  if headText ts != "#" then return ([], ts)
  let ((), ts) ← expect "(" (ts.drop 1)
  let (ps, ts) ← headerParams clean (ts.length + 1) ts
  let ((), ts) ← expect ")" ts
  return (ps, ts)

/-! ### Ports -/

/-- A port of the header with its direction and range, as soon as they are declared. -/
structure PortDecl where
  name : String
  type? : Option (Direction × Option BitRange)
  deriving DecidableEq, Repr

/-- The ports of a header up to its closing parenthesis; a direction applies to all names after
it. -/
def portNames (clean : List UInt8) :
    Nat → (current : Option (Direction × Option BitRange)) → Reader (List PortDecl)
  | _, _, [] => .error ⟨.openPortList, []⟩
  | 0, _, ts => .ok ([], ts)
  | fuel + 1, current, t :: ts =>
    let word := t.text
    if word == ")" then .ok ([], ts)
    else if word == "," then portNames clean fuel current ts
    else match direction? word with
      | some d => do
        let (range, ts) ← typeAndRange clean ts
        portNames clean fuel (some (d, range)) ts
      | none =>
        if t.isName then do
          let (ds, ts) ← portNames clean fuel current ts
          return (⟨word, current⟩ :: ds, ts)
        else .error ⟨.strayInPortList t.bytes, t :: ts⟩

/-- The port list `( … )` of a header, if there is one. -/
def portList (clean : List UInt8) : Reader (List PortDecl) := fun ts =>
  if headText ts == "(" then portNames clean (ts.length + 1) none (ts.drop 1) else .ok ([], ts)

/-- Gives the last port of some name its direction and range. -/
def declare? (name : String) (type : Direction × Option BitRange) :
    List PortDecl → Option (List PortDecl)
  | [] => none
  | d :: ds =>
    match declare? name type ds with
    | some ds' => some (d :: ds')
    | none => if d.name == name then some ({ d with type? := some type } :: ds) else none

/-- The names behind a direction in a body. -/
def declaredNames (module : String) (type : Direction × Option BitRange) :
    Nat → List PortDecl → Reader (List PortDecl)
  | 0, ds, ts => .ok (ds, ts)
  | _ + 1, _, [] => .error ⟨.notInPortList module [], []⟩
  | fuel + 1, ds, t :: ts =>
    match declare? t.text type ds with
    | none => .error ⟨.notInPortList module t.bytes, ts⟩
    | some ds' =>
      if headText ts == "," then declaredNames module type fuel ds' (ts.drop 1) else .ok (ds', ts)

/-! ### Modules -/

/-- What the body of a module tells: its ports, its parameters, and where it ends. -/
structure Body where
  ports : List PortDecl
  params : List Param
  stop : Nat

/-- The body of a module up to its end. -/
def body (clean : List UInt8) (module : String) : Nat → List PortDecl → List Param → Reader Body
  | _, _, _, [] => .error ⟨.missingEnd module, []⟩
  | 0, ports, params, ts => .ok (⟨ports, params, 0⟩, ts)
  | fuel + 1, ports, params, t :: ts =>
    let word := t.text
    if word == "endmodule" then .ok (⟨ports, params, t.offset + t.bytes.length⟩, ts)
    else if word == "function" || word == "task" then
      body clean module fuel ports params ((ts.dropWhile (·.text != "end" ++ word)).drop 1)
    else if word == "parameter" || word == "localparam" then do
      let (ps, ts) ← paramGroup clean false (t :: ts)
      let ((), ts) ← expect ";" ts
      body clean module fuel ports (params ++ ps) ts
    else match direction? word with
      | some d => do
        let (range, ts) ← typeAndRange clean ts
        let (ports, ts) ← declaredNames module (d, range) (ts.length + 1) ports ts
        let ((), ts) ← expect ";" ts
        body clean module fuel ports params ts
      | none => body clean module fuel ports params ts

/-- The name, the parts and the end of a module, read from behind its first keyword. -/
def moduleParts (clean : List UInt8) : Reader (String × Body)
  | [] => .error ⟨.moduleName [], []⟩
  | t :: ts =>
    if !t.isName then .error ⟨.moduleName t.bytes, ts⟩
    else do
      let (params, ts) ← paramList clean ts
      let (ports, ts) ← portList clean ts
      let ((), ts) ← expect ";" ts
      let (b, ts) ← body clean t.text (ts.length + 1) ports params ts
      return ((t.text, b), ts)

/-- Adds the ports of a header; each must have been given a direction. -/
def addPorts (m : Module) : List PortDecl → Except SourceError Module
  | [] => .ok m
  | d :: ds =>
    match d.type? with
    | none => .error (.noDirection m.name d.name)
    | some (direction, range) =>
      match m.add (.port ⟨d.name, direction, range⟩) with
      | .ok m => addPorts m ds
      | .error e => .error (.build e)

/-- The module of a name and a body, with its own piece of the source. -/
def toModule (name verbatim : String) (b : Body) : Except SourceError Module := do
  let m ← addPorts (.new name) b.ports
  let m ← (m.addAll (b.params.map .param)).mapError .build
  return { m with verbatim := verbatim }

/-- All modules from some token on. -/
def modulesFrom (src clean : List UInt8) : Nat → List Token → Except SourceError (List Module)
  | 0, _ => .ok []
  | _ + 1, [] => .ok []
  | fuel + 1, t :: ts =>
    if t.text == "module" || t.text == "macromodule" then do
      let ((name, b), ts) ← (moduleParts clean ts).mapError (·.toError clean)
      let piece := (src.drop t.offset).take (b.stop - t.offset)
      let m ← toModule name (Text.trim (Text.ofBytes piece) ++ "\n") b
      return m :: (← modulesFrom src clean fuel ts)
    else modulesFrom src clean fuel ts

/-- The modules of a source, in order. -/
def parse (text : String) : Except SourceError (List Module) :=
  let src := Text.bytes text
  let clean := strip src
  let ts := tokens clean
  modulesFrom src clean (ts.length + 1) ts

end Source

end TaskLoom
