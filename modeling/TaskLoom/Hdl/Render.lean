import TaskLoom.Hdl.Module

/-!
# Modules as Verilog

The text of a module: the names of its ports, then its parameters, port declarations, signals,
cells and logic, each region in the order of its declarations.  A module that carries its source
text is written as that text.
-/

namespace TaskLoom

/-- A line at a depth of indentation. -/
def indented (depth : Nat) (s : String) : String :=
  String.ofList (List.replicate (2 * depth) ' ') ++ s ++ "\n"

def blankLine : String := "\n"

/-- A range behind a keyword. -/
def rangeSuffix : Option BitRange → String
  | none => ""
  | some r => " " ++ BitRange.text (some r)

/-- Attributes between `(*` and `*)`. -/
def attrList (attrs : List String) : String := "(* " ++ String.intercalate ", " attrs ++ " *)"

def Direction.keyword : Direction → String
  | .output => "output"
  | .inout => "inout"
  | _ => "input"

def SignalKind.keyword : SignalKind → String
  | .reg => "reg"
  | _ => "wire"

/-- Texts on lines of their own with commas between them. -/
def commaLines (depth : Nat) : List String → List String
  | [] => []
  | [s] => [indented depth s]
  | s :: t :: rest => indented depth (s ++ ",") :: commaLines depth (t :: rest)

def Binding.text (b : Binding) : String := "." ++ b.name ++ "(" ++ b.arg.text ++ ")"

def Param.line (p : Param) : String :=
  indented 1 ((if p.isLocal then "localparam" else "parameter") ++ rangeSuffix p.range ++ " " ++
    p.name ++ " = " ++ p.value ++ ";")

def Port.line (p : Port) : String :=
  indented 1 (p.direction.keyword ++ rangeSuffix p.range ++ " " ++ p.name ++ ";")

def Signal.line (s : Signal) : String :=
  indented 1 ((if s.attrs.isEmpty then "" else attrList s.attrs ++ " ") ++ s.kind.keyword ++
    rangeSuffix s.range ++ " " ++ s.name ++ ";")

def Cell.lines (c : Cell) : List String :=
  [blankLine] ++
  (if c.attrs.isEmpty then [] else [indented 1 (Text.trim (attrList c.attrs))]) ++
  [indented 1 c.module] ++
  (if c.params.isEmpty then []
   else [indented 1 "#("] ++ commaLines 2 (c.params.map Binding.text) ++ [indented 1 ")"]) ++
  [indented 1 c.name, indented 1 "("] ++ commaLines 2 (c.ports.map Binding.text) ++
  [indented 1 ");", blankLine]

mutual

/-- The lines of one statement. -/
def Stmt.lines (depth : Nat) : Stmt → List String
  | .assign target value => [indented depth (target ++ " <= " ++ value.text ++ ";")]
  | .branch cond onTrue onFalse =>
    [indented depth ("if(" ++ cond.text ++ ") begin")] ++
    Stmt.blockLines (depth + 1) onTrue ++
    (if onFalse.isEmpty then []
     else [indented depth "end else begin"] ++ Stmt.blockLines (depth + 1) onFalse) ++
    [indented depth "end"]
  | .select subject arms =>
    [indented depth ("case(" ++ subject.text ++ ")")] ++
    Stmt.armLines (depth + 1) arms ++
    [indented depth "endcase"]
  | .display format args =>
    [indented depth ("$display(" ++
      String.intercalate ", " (Text.quote format :: args.map Expr.text) ++ ");")]

/-- The lines of several statements. -/
def Stmt.blockLines (depth : Nat) : List Stmt → List String
  | [] => []
  | s :: ss => Stmt.lines depth s ++ Stmt.blockLines depth ss

/-- The lines of the arms of a selection. -/
def Stmt.armLines (depth : Nat) : List (Expr × List Stmt) → List String
  | [] => []
  | (pattern, body) :: arms =>
    [indented depth (pattern.text ++ ": begin")] ++
    Stmt.blockLines (depth + 1) body ++
    [indented depth "end"] ++
    Stmt.armLines depth arms

end

def Logic.lines : Logic → List String
  | .assign target value => [indented 1 ("assign " ++ target ++ " = " ++ value.text ++ ";")]
  | .clocked body simulationOnly =>
    (if simulationOnly then [indented 1 "// synthesis translate_off"] else []) ++
    [indented 1 "always @(posedge ap_clk) begin"] ++
    Stmt.blockLines 2 body ++
    [indented 1 "end"] ++
    (if simulationOnly then [indented 1 "// synthesis translate_on"] else [])

/-- The lines of a module that has no source text of its own. -/
def Module.lines (m : Module) : List String :=
  [indented 0 ("module " ++ m.name), indented 0 "("] ++
  commaLines 1 (m.ports.map Port.name) ++
  [indented 0 ");", blankLine] ++
  m.params.map Param.line ++
  m.ports.map Port.line ++
  m.signals.map Signal.line ++
  m.cells.flatMap Cell.lines ++
  m.logics.flatMap Logic.lines ++
  [indented 0 "endmodule"]

/-- The Verilog text of a module. -/
def Module.render (m : Module) : String :=
  if m.verbatim == "" then String.join m.lines else m.verbatim

/-- There is no module to render. -/
structure NoModule where
  deriving DecidableEq, Repr

instance : Failure NoModule := ⟨fun _ => none, fun _ => "verilog: nil module"⟩

/-- The Verilog text of a module that may be missing. -/
def Module.render? : Option Module → Except NoModule String
  | none => .error ⟨⟩
  | some m => .ok m.render

end TaskLoom
