import TaskLoom.Settings.Value

/-!
# Conversions

Scalars convert into each other where a text says the same: numbers and truth values into texts, and
texts into numbers and truth values.  Tuples convert into lists and objects into maps, part by part.
A missing or an unknown value converts wherever its kind does.
-/

namespace TaskLoom.Settings

namespace Value

/-- The truth value that a text names. -/
def boolOfText? (s : String) : Option Bool :=
  if s == "true" || s == "1" then some true
  else if s == "false" || s == "0" then some false
  else none

/-- The kind of the items of a collection; parts that are not settled take on the kind of the
others. -/
def itemKind (vs : List Value) : Kind := ((kinds vs).find? fun k => !k.isAny).getD .any

/-- Gives a part that has no settled kind the kind of the parts beside it. -/
def withKind (k : Kind) : Value → Value
  | .null .any => .null k
  | .unknown .any b => .unknown k b
  | v => v

def listOf (vs : List Value) : Value :=
  let k := itemKind vs
  .list k (vs.map (withKind k))

/-- What is known of an unknown value that was converted from one kind to another. -/
def convertedBounds (b : Bounds) (source target : Kind) : Bounds :=
  let counted (n : Nat) : Bounds := { present := b.present, minLength := n, maxLength := some n }
  match source, target with
  | .object ms, .map _ => counted ms.length
  | .tuple ks, .list _ => counted ks.length
  | .list _, .list _ => { b with low := none, high := none }
  | .map _, .map _ => { b with low := none, high := none }
  | _, _ => { present := b.present }

mutual

/-- Brings a value to a kind, with at most `fuel` levels of parts. -/
def convertIn? (fuel : Nat) (target : Kind) (v : Value) : Option Value :=
  match fuel with
  | 0 => none
  | fuel + 1 =>
    if v.kind == target then some v
    else if !v.kind.isConvertible target then none
    else match target, v with
      | .any, v => some v
      | k, .unknown l b =>
        let settled := l.settle k
        some (within settled (convertedBounds b l settled))
      | k, .null l => some (.null (l.settle k))
      | .text, .number x => some (.text x.text)
      | .text, .bool b => some (.text (if b then "true" else "false"))
      | .number, .text s => (Amount.ofText? s).map .number
      | .bool, .text s => (boolOfText? s).map .bool
      | .tuple ks, .tuple vs =>
        ((ks.zip vs).mapM fun (k, v) => convertIn? fuel k v).map .tuple
      | .object ks, .object ms => (convertMembersIn? fuel ks ms).map .object
      | .object ks, .map _ ms => (convertMembersIn? fuel ks ms).map .object
      | .list k, .list l [] => some (.list (if k.isAny then l else k) [])
      | .list k, .list _ vs => (vs.mapM (convertIn? fuel k)).map listOf
      | .list k, .tuple [] => some (.list k [])
      | .list k, .tuple vs => do
        let item ← Kind.item? (kinds vs) k
        return listOf (← levelIn? fuel item vs)
      | .map k, .map l [] => some (.map (if k.isAny then l else k) [])
      | .map k, .map _ ms => mapIn? fuel k ms
      | .map k, .object [] => some (.map k [])
      | .map k, .object ms => do mapIn? fuel (← Kind.item? (kinds (ms.map Prod.snd)) k) ms
      | _, _ => none

/-- Brings the members that are asked for to their kinds. -/
def convertMembersIn? (fuel : Nat) (ks : List (String × Kind)) (ms : List (String × Value)) :
    Option (List (String × Value)) :=
  match fuel with
  | 0 => none
  | fuel + 1 =>
    ks.mapM fun (name, k) => do
      let (_, v) ← ms.find? (·.1 == name)
      return (name, ← convertIn? fuel k v)

/-- The map of members that are brought to one kind, which must be the same for all of them then. -/
def mapIn? (fuel : Nat) (k : Kind) (ms : List (String × Value)) : Option Value :=
  match fuel with
  | 0 => none
  | fuel + 1 => do
    let vs := ms.map Prod.snd
    let vs ← if k.isList || k.isMap || k.isObject then levelIn? fuel k vs
      else vs.mapM (convertIn? fuel k)
    let item := (vs.head?.map kind).getD k
    if vs.all fun v => v.kind == item then return .map item ((ms.map Prod.fst).zip vs) else none

/-- Brings items to one kind; parts of that kind that are not settled must then agree. -/
def levelIn? (fuel : Nat) (k : Kind) (vs : List Value) : Option (List Value) :=
  match fuel with
  | 0 => none
  | fuel + 1 => do
    let vs ← vs.mapM (convertIn? fuel k)
    match Kind.common? (kinds vs) with
    | some (common, _) => vs.mapM (convertIn? fuel common)
    | none => none

end

/-- Brings a value to a kind. -/
def convert? (target : Kind) (v : Value) : Option Value :=
  convertIn? (3 * (v.kind.depth + target.depth) + 3) target v

/-- Brings a value to the end of a route. -/
def follow? (v : Value) : Kind.Route → Option Value
  | .keep => some v
  | .through ks => ks.foldlM (fun v k => v.convert? k) v

end Value

end TaskLoom.Settings
