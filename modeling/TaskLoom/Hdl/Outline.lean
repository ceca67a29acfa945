import TaskLoom.Hdl.Module

/-!
# Outlines

A short listing of what the modules of a design declare.
-/

namespace TaskLoom

def Direction.tag : Direction → String
  | .input => "in "
  | .output => "out"
  | .inout => "io "
  | .unknown => "?"

def SignalKind.tag : SignalKind → String
  | .wire => "wire"
  | .reg => "reg "
  | .unknown => "?   "

/-- A headed section, left out if it has no lines. -/
def outlineSection (title : String) (lines : List String) : List String :=
  if lines.isEmpty then [] else ("  " ++ title ++ ":\n") :: lines

def Module.outline (m : Module) : String :=
  String.join <|
    ["module " ++ m.name ++ "\n"] ++
    (if m.verbatim == "" then [] else ["  verbatim\n"]) ++
    outlineSection "ports" (m.ports.map fun p =>
      s!"    {p.direction.tag} {p.name}{BitRange.text p.range}\n") ++
    outlineSection "params" (m.params.map fun p => s!"    {p.name} = {p.value}\n") ++
    outlineSection "signals" (m.signals.map fun s =>
      s!"    {s.kind.tag} {s.name}{BitRange.text s.range}\n") ++
    outlineSection "instances" (m.cells.map fun c =>
      s!"    {c.module} {c.name} ({c.ports.length} ports)\n") ++
    [s!"  logic: {m.logics.length} items\n", "\n"]

def Design.outline (d : Design) : String := String.join (d.modules.map Module.outline)

/-- The outline of a design that may be missing. -/
def Design.outline? : Option Design → String
  | none => "<nil design>\n"
  | some d => d.outline

end TaskLoom
