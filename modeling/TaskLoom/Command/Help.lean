import TaskLoom.Command.Run

/-!
# Help and inputs of a run

What is shown with an error about the arguments, and which paths a run will look at.
-/

namespace TaskLoom

/-- The lines about all commands. -/
def commandsUsage : String :=
  "taskhdl composes HLS task modules into a task-parallel design\n\n" ++
  "Usage:\n" ++
  "  taskhdl <command> [options]\n\n" ++
  "Commands:\n" ++
  "  compile    Generate the composite modules and write the Verilog bundle\n" ++
  "  lint       Validate a task description (and its RTL when -rtl is given)\n" ++
  "  graph      Print the task hierarchy\n"

/-- What is shown before an error.  An error about a flag is also named before the flags are
explained, unless it is the wish for that explanation. -/
def CommandError.preamble : CommandError → String
  | .flags c .helpWanted => flagsUsage c.name c.flags
  | .flags c e => e.message ++ "\n" ++ flagsUsage c.name c.flags
  | e =>
    match e.help with
    | .none => ""
    | .commands => commandsUsage
    | .flagsOf c => flagsUsage c.name c.flags

/-- The arguments of a command, with the settings file filled in as far as the tree holds it. -/
def effectiveArguments? (t : FileTree) (c : Command) (args : List String) : Option Arguments :=
  match readFlags c.flags [] {} args with
  | .error _ => none
  | .ok r =>
    match Settings.load t r.state.vars r.state.settingsFile with
    | .error _ => some r.state
    | .ok s => some (r.state.withSettings r.given s)

/-- The paths that a run looks at, as far as the tree can tell them. -/
def inputPaths (t : FileTree) : List String → List String
  | [] => []
  | name :: args =>
    match (Command.ofName? name).bind fun c => effectiveArguments? t c args with
    | none => []
    | some a =>
      [a.settingsFile, a.description, a.sourceDir, a.assetDir, a.output].filter
        fun p => p != "" && p != "-"

end TaskLoom
