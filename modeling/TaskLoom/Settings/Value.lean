import TaskLoom.Settings.Amount
import TaskLoom.Settings.Kind

/-!
# Values of the settings language

Besides the values that are written down there are missing values, which have a kind, and unknown
ones: an expression that cannot be worked out still has a kind, and some of what it could be may be
ruled out.
-/

namespace TaskLoom.Settings

/-- What is known of an unknown value. -/
structure Bounds where
  /-- It is not missing. -/
  present : Bool := false
  /-- The least number that it can be, and whether it can be that number. -/
  low : Option (Amount × Bool) := none
  /-- The greatest number that it can be, and whether it can be that number. -/
  high : Option (Amount × Bool) := none
  /-- The least number of its items. -/
  minLength : Nat := 0
  /-- The greatest number of its items. -/
  maxLength : Option Nat := none
  deriving Repr, Inhabited

/-- Whether bounds rule a number out. -/
def Bounds.excludes (b : Bounds) (x : Amount) : Bool :=
  let below := match b.low with
    | some (y, closed) => x.compare y == .lt || (!closed && x.compare y == .eq)
    | none => false
  let above := match b.high with
    | some (y, closed) => x.compare y == .gt || (!closed && x.compare y == .eq)
    | none => false
  below || above

inductive Value where
  /-- A missing value. -/
  | null (kind : Kind)
  | unknown (kind : Kind) (bounds : Bounds)
  | bool (b : Bool)
  | number (x : Amount)
  | text (s : String)
  | list (item : Kind) (items : List Value)
  | map (item : Kind) (members : List (String × Value))
  | tuple (items : List Value)
  /-- Members in the order of their names. -/
  | object (members : List (String × Value))
  deriving Repr, Inhabited

namespace Value

/-- A value of which nothing is known. -/
def anything : Value := .unknown .any {}

mutual

def kind : Value → Kind
  | .null k => k
  | .unknown k _ => k
  | .bool _ => .bool
  | .number _ => .number
  | .text _ => .text
  | .list k _ => .list k
  | .map k _ => .map k
  | .tuple vs => .tuple (kinds vs)
  | .object ms => .object (memberKinds ms)

def kinds : List Value → List Kind
  | [] => []
  | v :: vs => kind v :: kinds vs

def memberKinds : List (String × Value) → List (String × Kind)
  | [] => []
  | (name, v) :: ms => (name, kind v) :: memberKinds ms

end

def isNull : Value → Bool
  | .null _ => true
  | _ => false

def isUnknown : Value → Bool
  | .unknown _ _ => true
  | _ => false

/-- Whether a value is known not to be missing. -/
def isPresent : Value → Bool
  | .null _ => false
  | .unknown _ b => b.present
  | _ => true

/-! ### Bounds -/

/-- The bounds that a value keeps, be it known or not. -/
def bounds : Value → Bounds
  | .null _ => {}
  | .unknown _ b => b
  | .number x => { present := true, low := some (x, true), high := some (x, true) }
  | .list _ vs => { present := true, minLength := vs.length, maxLength := some vs.length }
  | .map _ ms => { present := true, minLength := ms.length, maxLength := some ms.length }
  | _ => { present := true }

/-- The value of a kind within bounds, which is known if they leave only one. -/
def within (k : Kind) (b : Bounds) : Value :=
  if !b.present then .unknown k b
  else match k, b.low, b.high, b.maxLength with
    | .any, _, _, _ => anything
    | .number, some (x, true), some (y, true), _ =>
      if x.compare y == .eq then .number x else .unknown k b
    | .list item, _, _, some n =>
      if b.minLength == n then .list item (List.replicate n (.unknown item {})) else .unknown k b
    | .map item, _, _, some 0 => .map item []
    | _, _, _, _ => .unknown k b

/-- An unknown value that is not missing. -/
def someOf (k : Kind) : Value := within k { present := true }

/-- The least number that a value can be, and whether it can be that number. -/
def low (v : Value) : Amount × Bool := v.bounds.low.getD (.limit true, false)

/-- The greatest number that a value can be, and whether it can be that number. -/
def high (v : Value) : Amount × Bool := v.bounds.high.getD (.limit false, false)

/-- The number of items of a collection. -/
def length? : Value → Option Nat
  | .list _ vs => some vs.length
  | .map _ ms => some ms.length
  | _ => none

/-- Whether a known value is ruled out for an unknown one of kind `k` within bounds. -/
def isExcluded (k : Kind) (b : Bounds) : Value → Bool
  | .null _ => b.present
  | v =>
    !v.kind.conforms k ||
      match v, v.length? with
      | .number x, _ => b.excludes x
      | _, some n => n < b.minLength || b.maxLength.any (· < n)
      | _, none => false

/-! ### Equality -/

mutual

/-- Whether the kind of a value is settled in all parts that are not missing. -/
def isSettled : Value → Bool
  | .unknown k _ => !k.isOpen
  | .list _ vs => allSettled vs
  | .map _ ms => membersSettled ms
  | .tuple vs => allSettled vs
  | .object ms => membersSettled ms
  | _ => true

def allSettled : List Value → Bool
  | [] => true
  | v :: vs => isSettled v && allSettled vs

def membersSettled : List (String × Value) → Bool
  | [] => true
  | (_, v) :: ms => isSettled v && membersSettled ms

end

/-- What can be said of the equality of two values of which at least one is missing or unknown. -/
def partialEquality (v w : Value) : Option Bool :=
  match v, w with
  | .unknown _ _, .unknown _ _ => none
  | .unknown k b, w => knownAgainst k b w
  | v, .unknown k b => knownAgainst k b v
  | .null _, .null _ => some true
  | _, _ => some false
where
  /-- The equality of an unknown value and a known one. -/
  knownAgainst (k : Kind) (b : Bounds) (v : Value) : Option Bool :=
    if isExcluded k b v then some false
    else if v.isNull || k.isOpen then none
    else if v.kind == k then none
    else some false

/-- The verdict on the equality of two values that needs no look at their parts, if there is one. -/
def verdict? (v w : Value) : Option (Option Bool) :=
  if v.isNull || v.isUnknown || w.isNull || w.isUnknown then some (partialEquality v w)
  else if !v.isSettled || !w.isSettled then
    some (if v.kind.conforms w.kind || w.kind.conforms v.kind then none else some false)
  else if v.kind != w.kind then some (some false)
  else none

mutual

/-- Whether two values are equal, unless that is unknown.  Values of different kinds are not equal,
but all missing values are. -/
def equal? (v w : Value) : Option Bool :=
  match verdict? v w with
  | some r => r
  | none =>
    match v, w with
    | .bool a, .bool b => some (a == b)
    | .number x, .number y => some (x.compare y == .eq)
    | .text s, .text t => some (s == t)
    | .list _ vs, .list _ ws => if vs.length == ws.length then equalItems? vs ws else some false
    | .tuple vs, .tuple ws => equalItems? vs ws
    | .map _ ms, .map _ ns =>
      if ms.map Prod.fst == ns.map Prod.fst then equalMembers? ms ns else some false
    | .object ms, .object ns => equalMembers? ms ns
    | _, _ => some false

/-- Compares item by item up to the first difference. -/
def equalItems? : List Value → List Value → Option Bool
  | v :: vs, w :: ws =>
    match equal? v w with
    | some true => equalItems? vs ws
    | r => r
  | _, _ => some true

def equalMembers? : List (String × Value) → List (String × Value) → Option Bool
  | (_, v) :: ms, (_, w) :: ns =>
    match equal? v w with
    | some true => equalMembers? ms ns
    | r => r
  | _, _ => some true

end

end Value

end TaskLoom.Settings
