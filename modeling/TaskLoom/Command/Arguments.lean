import TaskLoom.Command.Flag
import TaskLoom.Composite.Draft
import TaskLoom.Log

/-!
# Arguments of the commands

All commands share one record; each has its own flags for it.  A settings file fills in what the
flags leave open.
-/

namespace TaskLoom

structure Arguments where
  description : String := ""
  sourceDir : String := ""
  output : String := ""
  settingsFile : String := ""
  format : String := "verilog"
  vars : Settings.Vars := []
  registerLevel : Int := 0
  addressWidth : Int := defaultAddressWidth
  debugMonitors : Bool := false
  assetDir : String := ""
  lint : Bool := false
  lintPath : String := ""
  logLevel : String := "warn"
  logFormat : String := "text"
  deriving DecidableEq, Repr

namespace Arguments

/-! ### Flags -/

def descriptionFlag : Flag Arguments :=
  .ofText "desc" (fun s a => { a with description := s })
    "path to the JSON task-hierarchy description"

def sourceDirFlag (help : String) : Flag Arguments :=
  .ofText "rtl" (fun s a => { a with sourceDir := s }) help

def logFlags : List (Flag Arguments) :=
  [.ofText "log-level" (fun s a => { a with logLevel := s })
     "log level (trace|debug|info|warn|error)" "warn",
   .ofText "log-format" (fun s a => { a with logFormat := s })
     "diagnostic output format (text|json)" "text"]

/-- A flag that may be repeated; each one sets a variable. -/
def varFlag : Flag Arguments where
  name := "var"
  action := .value fun s a =>
    match a.vars.set s with
    | .ok vars => .ok { a with vars := vars }
    | .error e => .error (.variable e)
  valueName := "value"
  help := "config variable name=value, available as var.<name> (repeatable)"

def compileFlags : List (Flag Arguments) :=
  [descriptionFlag,
   sourceDirFlag "directory holding the HLS-generated Verilog",
   .ofText "o" (fun s a => { a with output := s })
     "output directory (for -emit ir, output file; stdout when omitted)",
   .ofText "config" (fun s a => { a with settingsFile := s })
     "path to a taskhdl.hcl config file (optional)",
   .ofText "emit" (fun s a => { a with format := s }) "output format (verilog|ir)" "verilog",
   varFlag,
   .ofInt "register-level" (fun n a => { a with registerLevel := n })
     "pipeline stages inserted on control and scalar paths",
   .ofInt "address-width" (fun n a => { a with addressWidth := n })
     "width of memory-mapped addresses" (toString defaultAddressWidth),
   .ofSwitch "debug-monitors" (fun b a => { a with debugMonitors := b })
     "add simulation-only FIFO monitors",
   .ofText "asset-dir" (fun s a => { a with assetDir := s })
     "directory holding fifo.v and async_mmap.v (optional)",
   .ofSwitch "lint" (fun b a => { a with lint := b })
     "run verilator --lint-only over the written files",
   .ofText "lint-path" (fun s a => { a with lintPath := s })
     "path to verilator (optional, falls back to PATH lookup)"] ++ logFlags

def lintFlags : List (Flag Arguments) :=
  [descriptionFlag, sourceDirFlag "directory holding the HLS-generated Verilog (optional)"]
    ++ logFlags

def graphFlags : List (Flag Arguments) := descriptionFlag :: logFlags

/-! ### Settings -/

/-- The setting that counts: one from the file, unless the flag was given or the file has none. -/
def pick {α : Type} (given : List String) (flag : String) (fromFile : Option α)
    (fromFlag : α) : α :=
  if given.contains flag then fromFlag else fromFile.getD fromFlag

/-- Fills in the settings of a file for all flags that were not given. -/
def withSettings (a : Arguments) (given : List String) (s : Settings) : Arguments :=
  { a with
    registerLevel := pick given "register-level" s.registerLevel a.registerLevel
    addressWidth := pick given "address-width" s.addressWidth a.addressWidth
    debugMonitors := pick given "debug-monitors" s.debugMonitors a.debugMonitors
    assetDir := pick given "asset-dir" s.assetDir a.assetDir
    output := pick given "o" s.outputDir a.output
    lint := pick given "lint" s.lint a.lint
    lintPath := pick given "lint-path" s.lintPath a.lintPath }

def options (a : Arguments) : Options := .make a.registerLevel a.addressWidth a.debugMonitors

def sink (a : Arguments) : LogSink := ⟨.ofText a.logFormat, .ofText a.logLevel⟩

end Arguments

end TaskLoom
