import TaskLoom.Settings.Basic
import TaskLoom.Text.Numeral

/-!
# Flags

A flag is written `-name value` or `-name=value`, with one dash or two; a switch needs no value, and
takes one only behind `=`.  Flags stand before all other arguments: the first argument that is no
flag ends them, and so does `--`, which is dropped.
-/

namespace TaskLoom

/-- Why a value is refused. -/
inductive ValueFault where
  | unreadable
  | outOfRange
  | variable (e : Settings.VarError)
  deriving DecidableEq, Repr

def ValueFault.text : ValueFault → String
  | .unreadable => "parse error"
  | .outOfRange => "value out of range"
  | .variable e => e.message

def ValueFault.ofNumeral : NumeralFault → ValueFault
  | .malformed => .unreadable
  | .outOfRange => .outOfRange

inductive FlagError where
  | malformed (argument : String)
  | undefined (name : String)
  | helpWanted
  | noValue (name : String)
  | refused (name value : String) (fault : ValueFault)
  | refusedSwitch (name value : String)
  deriving DecidableEq, Repr

def FlagError.message : FlagError → String
  | .malformed argument => s!"bad flag syntax: {argument}"
  | .undefined name => s!"flag provided but not defined: -{name}"
  | .helpWanted => "flag: help requested"
  | .noValue name => s!"flag needs an argument: -{name}"
  | .refused name value fault =>
    s!"invalid value {Text.quote value} for flag -{name}: {fault.text}"
  | .refusedSwitch name value =>
    s!"invalid boolean value {Text.quote value} for -{name}: {ValueFault.unreadable.text}"

/-- What a flag does to the state `σ`. -/
inductive FlagAction (σ : Type) where
  | switch (set : Bool → σ → σ)
  | value (set : String → σ → Except ValueFault σ)

/-- A flag with what is shown about it. -/
structure Flag (σ : Type) where
  name : String
  action : FlagAction σ
  /-- What the value is called. -/
  valueName : String := ""
  /-- The value without the flag, if that is worth telling. -/
  initial : String := ""
  help : String := ""

namespace Flag

def ofText {σ : Type} (name : String) (set : String → σ → σ) (help : String)
    (initial : String := "") : Flag σ :=
  ⟨name, .value fun s x => .ok (set s x), "string",
    if initial == "" then "" else Text.quote initial, help⟩

/-- A flag whose value is an integer in any base. -/
def ofInt {σ : Type} (name : String) (set : Int → σ → σ) (help : String) (initial : String := "") :
    Flag σ :=
  ⟨name, .value fun s x =>
      match Numeral.anyBase s.toList with
      | .ok n => .ok (set n x)
      | .error fault => .error (.ofNumeral fault),
    "int", initial, help⟩

def ofSwitch {σ : Type} (name : String) (set : Bool → σ → σ) (help : String) : Flag σ :=
  ⟨name, .switch set, "", "", help⟩

end Flag

/-- The truth value that a text spells. -/
def truthValue? (s : String) : Option Bool :=
  if ["1", "t", "T", "true", "TRUE", "True"].contains s then some true
  else if ["0", "f", "F", "false", "FALSE", "False"].contains s then some false
  else none

/-! ### Reading -/

/-- What an argument is on its own. -/
inductive Argument where
  | plain
  | endOfFlags
  | malformed
  | flag (name : String) (value : Option String)
  deriving DecidableEq, Repr

namespace Argument

/-- A flag behind its dashes: it has a name, and its name starts with no further dash. -/
def ofFlagText : List Char → Argument
  | [] => .malformed
  | '-' :: _ => .malformed
  | '=' :: _ => .malformed
  | cs =>
    match Text.cut? (String.ofList cs) '=' with
    | some (name, value) => .flag name (some value)
    | none => .flag (String.ofList cs) none

def ofText (s : String) : Argument :=
  match s.toList with
  | ['-', '-'] => .endOfFlags
  | '-' :: '-' :: cs => ofFlagText cs
  | '-' :: c :: cs => ofFlagText (c :: cs)
  | _ => .plain

end Argument

/-- The state after all flags, the names of the flags that were given, and the other arguments. -/
structure FlagReading (σ : Type) where
  state : σ
  given : List String
  rest : List String

/-- Takes a flag with the value that it needs. -/
def Flag.take {σ : Type} (f : Flag σ) (value : String) (x : σ) : Except FlagError σ :=
  match f.action with
  | .switch set =>
    match truthValue? value with
    | some b => .ok (set b x)
    | none => .error (.refusedSwitch f.name value)
  | .value set =>
    match set value x with
    | .ok x => .ok x
    | .error fault => .error (.refused f.name value fault)

def Flag.isSwitch {σ : Type} (f : Flag σ) : Bool :=
  match f.action with
  | .switch _ => true
  | .value _ => false

/-- Why a flag that is not among the defined ones is refused. -/
def FlagError.unknown (name : String) : FlagError :=
  if name == "help" || name == "h" then .helpWanted else .undefined name

/-- Reads flags from the front of the arguments. -/
def readFlags {σ : Type} (flags : List (Flag σ)) (given : List String) (x : σ) :
    List String → Except FlagError (FlagReading σ)
  | [] => .ok ⟨x, given, []⟩
  | a :: rest =>
    match Argument.ofText a with
    | .plain => .ok ⟨x, given, a :: rest⟩
    | .endOfFlags => .ok ⟨x, given, rest⟩
    | .malformed => .error (.malformed a)
    | .flag name value =>
      match flags.find? (·.name == name) with
      | none => .error (.unknown name)
      | some f =>
        match value with
        | some v => do readFlags flags (given ++ [name]) (← f.take v x) rest
        | none =>
          if f.isSwitch then do readFlags flags (given ++ [name]) (← f.take "true" x) rest
          else match rest with
            | [] => .error (.noValue name)
            | v :: rest => do readFlags flags (given ++ [name]) (← f.take v x) rest

/-! ### Help -/

/-- The lines about one flag. -/
def Flag.usage {σ : Type} (f : Flag σ) : String :=
  let value := if f.valueName == "" then "" else " " ++ f.valueName
  let initial := if f.initial == "" then "" else " (default " ++ f.initial ++ ")"
  "  -" ++ f.name ++ value ++ "\n    \t" ++ f.help ++ initial ++ "\n"

/-- The lines about all flags of a command, by name. -/
def flagsUsage {σ : Type} (command : String) (flags : List (Flag σ)) : String :=
  "Usage of " ++ command ++ ":\n" ++ String.join ((Text.sortedBy Flag.name flags).map Flag.usage)

end TaskLoom
