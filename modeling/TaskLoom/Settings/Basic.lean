import TaskLoom.Failure
import TaskLoom.Files.Tree
import TaskLoom.Settings.Body
import TaskLoom.Settings.Eval
import TaskLoom.Text.Quoted

/-!
# Settings

A settings file sets some of seven attributes.  Variables that are given from outside stand in its
expressions as members of `var`.
-/

namespace TaskLoom

/-- What a settings file sets. -/
structure Settings where
  registerLevel : Option Int := none
  addressWidth : Option Int := none
  debugMonitors : Option Bool := none
  assetDir : Option String := none
  outputDir : Option String := none
  lint : Option Bool := none
  lintPath : Option String := none
  deriving DecidableEq, Repr

namespace Settings

/-! ### Variables -/

/-- Variables by name, in order. -/
abbrev Vars := List (String × String)

inductive VarError where
  | noPair (text : String)
  | badName (name : String)
  deriving DecidableEq, Repr

def VarError.message : VarError → String
  | .noPair text => s!"variable {Text.quote text} must have the form name=value"
  | .badName name => s!"variable name {Text.quote name} is not a valid identifier"

instance : Failure VarError := ⟨fun _ => none, VarError.message⟩

/-- Sets a variable by a text `name=value`; an earlier value is replaced. -/
def Vars.set (vars : Vars) (s : String) : Except VarError Vars :=
  match Text.cut? s '=' with
  | none => .error (.noPair s)
  | some (name, value) =>
    let name := Text.trim name
    if name == "" then .error (.noPair s)
    else if !Text.isIdentifier name then .error (.badName name)
    else .ok (byName (vars ++ [(name, value)]))

/-- All variables in one text. -/
def Vars.text (vars : Vars) : String :=
  String.intercalate "," (vars.map fun (name, value) => name ++ "=" ++ value)

/-! ### Attributes -/

inductive Error where
  | unreadable (e : FileError)
  | unparsable (file : String)
  | undecodable (file : String)
  | negativeLevel (level : Int)
  | addressWidth (width : Int)
  deriving DecidableEq, Repr

def Error.message : Error → String
  | .unreadable e => s!"config: {e.message}"
  | .unparsable file => s!"config: failed to parse {file}"
  | .undecodable file => s!"config: failed to decode {file}"
  | .negativeLevel level => s!"config: register_level must not be negative, got {level}"
  | .addressWidth width => s!"config: address_width must be within 1..64, got {width}"

instance : Failure Error := ⟨fun _ => none, Error.message⟩

/-- The value of an attribute of a kind, read by `get?`; one that is missing is not set. -/
def attributeValue {α : Type} (k : Kind) (get? : Value → Option α) (vars : Vars) (f : Formula) :
    Option (Option α) :=
  let o := eval (.ofVars vars) f
  if o.failed then none
  else match o.value.convert? k with
    | none => none
    | some (.null _) => some none
    | some v => (get? v).map some

/-- An attribute that is a whole number. -/
def intAttribute : Vars → Formula → Option (Option Int) :=
  attributeValue .number fun
    | .number x => x.toInt?
    | _ => none

def boolAttribute : Vars → Formula → Option (Option Bool) :=
  attributeValue .bool fun
    | .bool b => some b
    | _ => none

def textAttribute : Vars → Formula → Option (Option String) :=
  attributeValue .text fun
    | .text s => some s
    | _ => none

/-- Sets one attribute. -/
def setAttribute? (vars : Vars) (s : Settings) (name : String) (f : Formula) : Option Settings :=
  match name with
  | "register_level" => (intAttribute vars f).map ({ s with registerLevel := · })
  | "address_width" => (intAttribute vars f).map ({ s with addressWidth := · })
  | "debug_monitors" => (boolAttribute vars f).map ({ s with debugMonitors := · })
  | "asset_dir" => (textAttribute vars f).map ({ s with assetDir := · })
  | "output_dir" => (textAttribute vars f).map ({ s with outputDir := · })
  | "lint" => (boolAttribute vars f).map ({ s with lint := · })
  | "lint_path" => (textAttribute vars f).map ({ s with lintPath := · })
  | _ => none

def setAll? (vars : Vars) (s : Settings) : List (String × Formula) → Option Settings
  | [] => some s
  | (name, f) :: rest => do setAll? vars (← setAttribute? vars s name f) rest

/-- The settings of a body, which must have no blocks and only known attributes. -/
def decode? (vars : Vars) (b : Body) : Option Settings :=
  if b.hasBlocks then none else setAll? vars {} b.attributes

/-- The level must not be negative, and an address has 1 to 64 bits. -/
def validate (s : Settings) : Except Error Settings :=
  match s.registerLevel.filter (· < 0) with
  | some level => .error (.negativeLevel level)
  | none =>
    match s.addressWidth.filter fun w => w < 1 || 64 < w with
    | some width => .error (.addressWidth width)
    | none => .ok s

/-- The settings that a text describes; `file` is only named in messages. -/
def parse (vars : Vars) (file text : String) : Except Error Settings :=
  match parse? text with
  | none => .error (.unparsable file)
  | some b =>
    match decode? vars b with
    | none => .error (.undecodable file)
    | some s => s.validate

/-- The settings of a file. -/
def load (t : FileTree) (vars : Vars) (file : String) : Except Error Settings :=
  match t.read file with
  | .error e => .error (.unreadable e)
  | .ok text => parse vars file text

end Settings

end TaskLoom
