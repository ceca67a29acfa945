import TaskLoom.Description.Value
import TaskLoom.Text.Numeral
import TaskLoom.Text.Quoted

/-!
# Lenient readings of data trees

Each part of a description asks for a certain kind of value and takes whatever can reasonably be
read as one: a number where a text is asked for, a single item where a list is asked for.  A
reading goes on after a fault, so that all faults of a tree come to light.
-/

namespace TaskLoom

/-- Something that cannot be read, with a note on it if there is more to say than where it is. -/
structure Fault where
  note : Option String := none
  deriving DecidableEq, Repr

/-- What is read, or all faults that were met. -/
inductive Reading (α : Type) where
  | ok (a : α)
  | faulty (faults : List Fault)
  deriving Repr

namespace Reading

def map {α β : Type} (f : α → β) : Reading α → Reading β
  | .ok a => .ok (f a)
  | .faulty fs => .faulty fs

/-- Applies a function to its argument; the faults of both are kept. -/
def ap {α β : Type} : Reading (α → β) → Reading α → Reading β
  | .ok f, .ok a => .ok (f a)
  | .ok _, .faulty gs => .faulty gs
  | .faulty fs, .ok _ => .faulty fs
  | .faulty fs, .faulty gs => .faulty (fs ++ gs)

instance : Functor Reading := ⟨map, fun a x => map (fun _ => a) x⟩

instance : Seq Reading := ⟨fun f x => ap f (x ())⟩

/-- A fault without a note. -/
def unfit {α : Type} : Reading α := .faulty [{}]

def noted {α : Type} (note : String) : Reading α := .faulty [⟨some note⟩]

/-- All items in order; the faults of all of them are kept. -/
def all {α : Type} : List (Reading α) → Reading (List α)
  | [] => .ok []
  | r :: rs => ap (map List.cons r) (all rs)

end Reading

namespace Value

/-! ### Scalars -/

def readText : Value → Reading String
  | .null => .ok ""
  | .text s => .ok s
  | .bool b => .ok (if b then "1" else "0")
  | .number (.double x) => .ok (Decimal.ofDouble x).positional
  | .number (.source s) => .ok s
  | .number (.int i) => .ok (toString i)
  | _ => .unfit

/-- An integer written with digits; no digits at all count as zero. -/
def digitsAsInt (s : String) : Reading Int :=
  if s == "" then .ok 0
  else match Numeral.anyBase s.toList with
    | .ok i => .ok i
    | .error _ => .unfit

def readInt : Value → Reading Int
  | .null => .ok 0
  | .text s => digitsAsInt s
  | .bool b => .ok (if b then 1 else 0)
  | .number (.double x) => .ok x.toWord
  | .number (.source s) => digitsAsInt s
  | .number (.int i) => .ok i
  | _ => .unfit

/-! ### Lists and objects -/

/-- A list; a single item stands for a list of one, and an empty object for no item. -/
def readList {α : Type} (item : Value → Reading α) : Value → Reading (List α)
  | .null => .ok []
  | .list vs => .all (vs.map item)
  | .object [] => .ok []
  | v => .all [item v]

/-- The members of an object of free names. -/
def readMembers {α : Type} (item : Value → Reading α) (ms : List (String × Value)) :
    Reading (List (String × α)) :=
  .all (ms.map fun (k, v) => Reading.map (fun a => (k, a)) (item v))

mutual

/-- An object of free names.  A list of objects is merged, later members winning, and its first
faulty item is the last one that is looked at. -/
def readTable {α : Type} (item : Value → Reading α) : Value → Reading (List (String × α))
  | .null => .ok []
  | .object ms => readMembers item ms
  | .list vs => readTables item [] vs
  | _ => .unfit

/-- Lays the tables of a list over the members that were read before, one after the other. -/
def readTables {α : Type} (item : Value → Reading α) (before : List (String × α)) :
    List Value → Reading (List (String × α))
  | [] => .ok before
  | v :: vs =>
    match readTable item v with
    | .ok ms => readTables item (overlaid before ms) vs
    | .faulty fs => .faulty fs

end

/-! ### Records -/

/-- A name without regard to upper and lower case. -/
def foldedName (s : String) : String :=
  s.map fun c => if c = 'ſ' then 's' else if c = '\u212A' then 'k' else c.toLower

/-- The member of a name, or else one whose name differs in case only.  A member that is missing
counts as null. -/
def memberNamed (ms : List (String × Value)) (name : String) : Value :=
  match ms.find? (·.1 == name) with
  | some m => m.2
  | none =>
    match ms.find? fun m => foldedName m.1 == foldedName name with
    | some m => m.2
    | none => .null

/-- A record of fixed names: an object, or nothing. -/
def readRecord {α : Type} (read : List (String × Value) → Reading α) : Value → Reading α
  | .null => read []
  | .object ms => read ms
  | _ => .unfit

end Value

end TaskLoom
