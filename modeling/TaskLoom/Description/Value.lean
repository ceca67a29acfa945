import TaskLoom.Number.Decimal
import TaskLoom.Number.Literal
import TaskLoom.Text.Basic

/-!
# Data trees

A description is written as a tree of objects, lists and scalars.  The order of the members of an
object carries no meaning, and of two members of one name the later one counts: `Value.distinct`
keeps only the members that count, each where it stands.
-/

namespace TaskLoom

/-- A number, as precisely as the reader keeps it. -/
inductive Quantity where
  /-- A double. -/
  | double (x : Binary)
  /-- The digits as they are written. -/
  | source (text : String)
  /-- A signed 64-bit integer. -/
  | int (i : Int)
  deriving DecidableEq, Repr

inductive Value where
  | null
  | bool (b : Bool)
  | number (n : Quantity)
  | text (s : String)
  | list (items : List Value)
  | object (members : List (String × Value))
  deriving Repr, Inhabited

/-! ### Members by name -/

/-- The members that count: of several members of one name only the last is kept. -/
def lastOfEach {α : Type} : List (String × α) → List (String × α)
  | [] => []
  | m :: ms => if ms.any (·.1 == m.1) then lastOfEach ms else m :: lastOfEach ms

/-- Members laid over others, whose members of the same names they replace. -/
def overlaid {α : Type} (ms ns : List (String × α)) : List (String × α) :=
  ms.filter (fun m => ns.all (·.1 != m.1)) ++ ns

/-- The members that count, in the order of their names. -/
def byName {α : Type} (ms : List (String × α)) : List (String × α) :=
  Text.sortedBy Prod.fst (lastOfEach ms)

namespace Value

mutual

/-- The tree with only the members that count. -/
def distinct : Value → Value
  | .list xs => .list (distinctItems xs)
  | .object ms => .object (lastOfEach (distinctMembers ms))
  | v => v

def distinctItems : List Value → List Value
  | [] => []
  | v :: vs => distinct v :: distinctItems vs

def distinctMembers : List (String × Value) → List (String × Value)
  | [] => []
  | (k, v) :: ms => (k, distinct v) :: distinctMembers ms

end

mutual

/-- The tree with another reading of its numbers, if each number has one. -/
def mapNumbers? (f : Quantity → Option Quantity) : Value → Option Value
  | .number n => (f n).map .number
  | .list xs => (mapItems? f xs).map .list
  | .object ms => (mapMembers? f ms).map .object
  | v => some v

def mapItems? (f : Quantity → Option Quantity) : List Value → Option (List Value)
  | [] => some []
  | v :: vs => do return (← mapNumbers? f v) :: (← mapItems? f vs)

def mapMembers? (f : Quantity → Option Quantity) :
    List (String × Value) → Option (List (String × Value))
  | [] => some []
  | (k, v) :: ms => do return (k, ← mapNumbers? f v) :: (← mapMembers? f ms)

end

/-! ### How a value is shown in a message -/

def shownQuantity : Quantity → String
  | .double x => (Decimal.ofDouble x).general
  | .source s => s
  | .int i => toString i

mutual

/-- The members of an object are shown in the order of their names. -/
def shown : Value → String
  | .null => "<nil>"
  | .bool b => if b then "true" else "false"
  | .number n => shownQuantity n
  | .text s => s
  | .list xs => "[" ++ String.intercalate " " (shownItems xs) ++ "]"
  | .object ms =>
    let members := (Text.sortedBy Prod.fst (shownMembers ms)).map fun (k, s) => k ++ ":" ++ s
    "map[" ++ String.intercalate " " members ++ "]"

def shownItems : List Value → List String
  | [] => []
  | v :: vs => shown v :: shownItems vs

def shownMembers : List (String × Value) → List (String × String)
  | [] => []
  | (k, v) :: ms => (k, shown v) :: shownMembers ms

end

end Value

namespace Quantity

/-- Written digits as a double, if they are not too large for one. -/
def toDouble? : Quantity → Option Quantity
  | .source s => (DecimalLiteral.ofChars s.toList).toDouble?.map .double
  | n => some n

/-- Written digits as an integer: whole if they are written so, and else cut off. -/
def toInt : Quantity → Quantity
  | .source s =>
    match Numeral.int? s with
    | some i => .int i
    | none =>
      match (DecimalLiteral.ofChars s.toList).toDouble? with
      | some x => .int x.toWord
      | none => .int (-(signedBound : Int))
  | n => n

end Quantity

end TaskLoom
