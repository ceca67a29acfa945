import TaskLoom.Failure
import TaskLoom.Text.Quoted

/-!
# Argument categories

The category of an argument says how it is wired between a composite task and one of its children.
-/

namespace TaskLoom

inductive Category where
  | scalar
  /-- The reading end of a stream. -/
  | istream
  /-- The writing end of a stream. -/
  | ostream
  /-- Memory reached through a bus of its own. -/
  | mmap
  /-- Memory reached through separate address and data channels. -/
  | asyncMmap
  /-- A code that stands for no category. -/
  | unknown (code : Int)
  deriving DecidableEq, Repr, Inhabited

namespace Category

def ofCode (code : Int) : Category :=
  if code = 0 then .scalar
  else if code = 1 then .istream
  else if code = 2 then .ostream
  else if code = 3 then .mmap
  else if code = 4 then .asyncMmap
  else .unknown code

def code : Category → Int
  | .scalar => 0
  | .istream => 1
  | .ostream => 2
  | .mmap => 3
  | .asyncMmap => 4
  | .unknown c => c

def text : Category → String
  | .scalar => "scalar"
  | .istream => "istream"
  | .ostream => "ostream"
  | .mmap => "mmap"
  | .asyncMmap => "async_mmap"
  | .unknown c => s!"Category({c})"

/-- The categories that a description can name. -/
def named : List Category := [.scalar, .istream, .ostream, .mmap, .asyncMmap]

def ofText? (s : String) : Option Category := named.find? (·.text == s)

def isValid : Category → Bool
  | .unknown _ => false
  | _ => true

def isMmap (c : Category) : Bool := c == .mmap || c == .asyncMmap

def isAsync (c : Category) : Bool := c == .asyncMmap

def isStream (c : Category) : Bool := c == .istream || c == .ostream

/-- Whether data flows from the parent into the child. -/
def isInput (c : Category) : Bool := c == .scalar || c == .istream

/-- Whether data flows from the child into the parent. -/
def isOutput (c : Category) : Bool := c == .ostream

end Category

/-- A text that names no category. -/
structure UnknownCategory where
  text : String
  deriving DecidableEq, Repr

def UnknownCategory.message (e : UnknownCategory) : String :=
  s!"category {Text.quote e.text}: {Kind.unsupportedCategory.text}"

instance : Failure UnknownCategory := ⟨fun _ => some .unsupportedCategory, UnknownCategory.message⟩

def Category.parse (s : String) : Except UnknownCategory Category :=
  match ofText? s with
  | some c => .ok c
  | none => .error ⟨s⟩

end TaskLoom
