import TaskLoom.Settings.Conversion
import TaskLoom.Settings.Formula
import TaskLoom.Text.Canonical.Basic

/-!
# Operations on values

What operators, functions, members, indices and choices make of values.  An operation without a
result fails; one on unknown values has an unknown result, unless bounds decide it.
-/

namespace TaskLoom.Settings

namespace Value

/-- A text in canonical spelling. -/
def ofText (s : String) : Value := .text (Text.canonical s)

/-- An operand, which is converted and must not be missing. -/
def operand? (k : Kind) (v : Value) : Option Value := (v.convert? k).filter fun v => !v.isNull

/-- A truth value, unless it is unknown. -/
def ofBool? : Option Bool → Value
  | some b => .bool b
  | none => someOf .bool

/-! ### Arithmetic -/

/-- Of several amounts the one that comes last in an order; the first of equals. -/
def extreme (better : Ordering) (start : Amount) (xs : List Amount) : Amount :=
  xs.foldl (fun best x => if x.compare best == better then x else best) start

/-- The least of several amounts, and the limit if none is below it. -/
def least (xs : List Amount) : Amount := extreme .lt (.limit false) xs

/-- The greatest of several amounts, and the limit if none is above it. -/
def greatest (xs : List Amount) : Amount := extreme .gt (.limit true) xs

/-- The values of an operation whose extremes lie at the ends of its operands. -/
def span (f : Amount → Amount → Option Amount) (v w : Value) : Value :=
  let ends := [(v.low, w.low), (v.low, w.high), (v.high, w.low), (v.high, w.high)]
  let bound (negative : Bool) (x : Amount) : Option (Amount × Bool) :=
    if x.compare (.limit negative) == .eq then none else some (x, true)
  match ends.mapM fun (x, y) => f x.1 y.1 with
  | none => someOf .number
  | some [] => someOf .number
  | some (x :: xs) =>
    within .number
      { present := true
        low := bound true (extreme .lt x xs)
        high := bound false (extreme .gt x xs) }

/-- An operation on two numbers; `ofUnknown` is its result if one of them is unknown. -/
def arithmetic? (f : Amount → Amount → Option Amount) (ofUnknown : Value → Value → Value)
    (v w : Value) : Option Value := do
  match ← v.operand? .number, ← w.operand? .number with
  | .number x, .number y => return .number (← f x y)
  | v, w => return ofUnknown v w

/-- Whether one number is below another, unless that is unknown. -/
def below? : Value → Value → Option Bool
  | .number x, .number y => some (x.compare y == .lt)
  | v, w =>
    if v.high.1.compare w.low.1 == .lt then some true
    else if v.low.1.compare w.high.1 == .gt then some false
    else none

/-- A comparison of two numbers. -/
def comparison? (holds : Value → Value → Option Bool) (v w : Value) : Option Value := do
  return ofBool? (holds (← v.operand? .number) (← w.operand? .number))

/-- A comparison that also holds of equal numbers. -/
def orEqual (holds : Value → Value → Option Bool) (v w : Value) : Option Bool := do
  return (← holds v w) || (← equal? v w)

/-- An operation on two truth values. -/
def logic? (f : Bool → Bool → Bool) (v w : Value) : Option Value := do
  match ← v.operand? .bool, ← w.operand? .bool with
  | .bool a, .bool b => return .bool (f a b)
  | _, _ => return someOf .bool

/-- The opposite number. -/
def negative? (v : Value) : Option Value := do
  match ← v.operand? .number with
  | .number x => return .number x.neg
  | _ => return someOf .number

/-- The opposite truth value. -/
def not? (v : Value) : Option Value := do
  match ← v.operand? .bool with
  | .bool b => return .bool !b
  | _ => return someOf .bool

end Value

/-- The kind of an operator's result. -/
def Operator.kind : Operator → Kind
  | .add | .sub | .mul | .div | .mod => .number
  | _ => .bool

/-- The result of an operator. -/
def Operator.combine? (op : Operator) (v w : Value) : Option Value :=
  let above (v w : Value) : Option Bool := w.below? v
  match op with
  | .or => Value.logic? (· || ·) v w
  | .and => Value.logic? (· && ·) v w
  | .eq => some (.ofBool? (v.equal? w))
  | .ne => some (.ofBool? ((v.equal? w).map (!·)))
  | .lt => Value.comparison? Value.below? v w
  | .le => Value.comparison? (Value.orEqual Value.below?) v w
  | .gt => Value.comparison? above v w
  | .ge => Value.comparison? (Value.orEqual above) v w
  | .add => Value.arithmetic? Amount.add? (Value.span Amount.add?) v w
  | .sub => Value.arithmetic? Amount.sub? (Value.span Amount.sub?) v w
  | .mul => Value.arithmetic? Amount.mul? (Value.span Amount.mul?) v w
  | .div => Value.arithmetic? Amount.div? (fun _ _ => .someOf .number) v w
  | .mod => Value.arithmetic? Amount.mod? (fun _ _ => .someOf .number) v w

namespace Value

/-! ### Members and items -/

/-- The member of a value with a given name. -/
def member? (v : Value) (name : String) : Option Value :=
  let name := Text.canonical name
  match v with
  | .object ms => (ms.find? (·.1 == name)).map Prod.snd
  | .map _ ms => (ms.find? (·.1 == name)).map Prod.snd
  | .unknown .any _ => some anything
  | .unknown (.map k) _ => some (.unknown k {})
  | .unknown k _ => (k.member? name).map fun k => .unknown k {}
  | _ => none

/-- The number that an amount is as a position. -/
def position? (x : Amount) : Option Nat :=
  match x.toInt? with
  | some i => if i < 0 then none else some i.toNat
  | none => none

/-- The item of a tuple or a list at a position. -/
def itemAt? (v : Value) (x : Amount) : Option Value :=
  match v with
  | .tuple vs => (position? x).bind (vs[·]?)
  | .list _ vs => (position? x).bind (vs[·]?)
  | .unknown (.list k) _ => some (.unknown k {})
  | .unknown k _ => ((position? x).bind (k.parts[·]?)).map fun k => .unknown k {}
  | _ => none

/-- What stands at an unknown place of a value: in a tuple it could be anything. -/
def anyItem (v : Value) : Value :=
  match v.kind with
  | .list k => .unknown k {}
  | .map k => .unknown k {}
  | _ => anything

/-- An item of a tuple or a list by its position, or a member of an object or a map by its name. -/
def item? (v key : Value) : Option Value :=
  if v.isNull || key.isNull then none
  else match v.kind, key.kind with
    | .any, _ => some anything
    | _, .any => some anything
    | k, _ => do
      if k.isTuple || k.isList then
        match ← key.convert? .number with
        | .number x => v.itemAt? x
        | _ => return v.anyItem
      else if k.isMap || k.isObject then
        match ← key.convert? .text with
        | .text name => if v.isUnknown then return v.anyItem else v.member? name
        | _ => return v.anyItem
      else none

/-! ### Functions -/

/-- The greatest or the least of several numbers. -/
def extremeOf? (choose : List Amount → Amount) (args : List Value) : Option Value := do
  let args ← args.mapM (operand? .number)
  if args.isEmpty then none
  else if args.any isUnknown then return someOf .number
  else
    return .number (choose (args.filterMap fun
      | .number x => some x
      | _ => none))

/-- The functions of the language. -/
def function? (name : String) : Option (List Value → Option Value) :=
  if name == "max" then some (extremeOf? greatest)
  else if name == "min" then some (extremeOf? least)
  else none

/-- The items of a value as arguments; `none` inside if they are unknown. -/
def spread? (v : Value) : Option (Option (List Value)) :=
  match v with
  | .tuple vs => some (some vs)
  | .list _ vs => some (some vs)
  | .unknown k _ => if k.isTuple || k.isList || k.isAny then some none else none
  | _ => none

/-! ### Choices -/

/-- The common kind of two alternatives and their ways to it.  A missing value whose kind is not
settled goes along with the other alternative; beside any other value of such a kind nothing is
converted. -/
def alternatives? (v w : Value) : Option (Kind × Kind.Route × Kind.Route) :=
  let isBlank (v : Value) : Bool := v.isNull && v.kind.isAny
  if isBlank v then some (w.kind, .through [w.kind], .keep)
  else if isBlank w then some (v.kind, .keep, .through [v.kind])
  else if v.kind.isAny || w.kind.isAny then some (.any, .keep, .keep)
  else match Kind.common? [v.kind, w.kind] with
    | some (k, [r, s]) => some (k, r, s)
    | _ => none

/-- A bound, unless it is the limit that bounds nothing. -/
def bound? (negative : Bool) (x : Amount) (closed : Bool) : Option (Amount × Bool) :=
  if x == .limit negative then none else some (x, closed)

/-- Of two bounds the one that leaves more; both ends belong to it if they belong to either. -/
def looser (better : Ordering) (x y : Amount × Bool) : Amount × Bool :=
  if x.1.compare y.1 == better then x
  else if x.1.compare y.1 == .eq then (y.1, x.2 || y.2)
  else y

/-- What is known of a value that is one of two, of a common kind `k`. -/
def either (k : Kind) (v w : Value) : Value :=
  let b : Bounds := { present := v.isPresent && w.isPresent }
  if v.isNull && w.isNull then .null k
  else if v.kind == .number && w.kind == .number then
    let low := looser .lt v.low w.low
    let high := looser .gt v.high w.high
    within .number { b with low := bound? true low.1 low.2, high := bound? false high.1 high.2 }
  else if (v.kind.isList || v.kind.isMap) && v.kind == w.kind then
    within k { b with
      minLength := min v.bounds.minLength w.bounds.minLength
      maxLength := do return max (← v.bounds.maxLength) (← w.bounds.maxLength) }
  else within k b

end Value

end TaskLoom.Settings
