import TaskLoom.Number.Binary

/-!
# The shortest decimal

Of the decimals that round to a given binary number, the one with the fewest digits is written; of
two with equally many digits the nearer one.  For each number of digits there are at most two
candidates, the neighbours of the value on that decimal grid.
-/

namespace TaskLoom

/-- The number `± 0.d₁d₂… · 10 ^ point`. -/
structure Decimal where
  negative : Bool
  digits : List Char
  point : Int
  deriving DecidableEq, Repr

namespace Decimal

/-- The decimals that round to one value: the value and the two ends of their interval over a
common denominator, and whether the ends belong to it. -/
structure Interval where
  low : Nat
  value : Nat
  high : Nat
  den : Nat
  closed : Bool

/-- The position of the decimal point: `10 ^ (p - 1) ≤ value < 10 ^ p`. -/
def Interval.point (i : Interval) : Int :=
  if i.den ≤ i.value then (Nat.toDigits 10 (i.value / i.den)).length
  else 1 - ((Nat.toDigits 10 ((i.den - 1) / i.value)).length : Int)

/-- The digits at the grid of step `10 ^ g`, if one of the two neighbours of the value on that grid
lies in the interval. -/
def Interval.onGrid? (i : Interval) (g : Int) : Option Nat :=
  let up := Nat.pow 10 g.toNat
  let down := Nat.pow 10 (-g).toNat
  let t := i.value * down / (i.den * up)
  let below := t * up * i.den
  let above := (t + 1) * up * i.den
  let okBelow := if i.closed then i.low * down ≤ below else i.low * down < below
  let okAbove := if i.closed then above ≤ i.high * down else above < i.high * down
  let twice := 2 * (i.value * down)
  if okBelow ∧ okAbove then
    if twice < below + above then some t
    else if below + above < twice then some (t + 1)
    else if t % 2 = 0 then some t else some (t + 1)
  else if okBelow then some t
  else if okAbove then some (t + 1)
  else none

/-- The first grid, from `n` digits on, that has a decimal of the interval. -/
def Interval.search (i : Interval) (point : Int) : Nat → Nat → Nat × Int
  | 0, n => (i.value, point - n)
  | fuel + 1, n =>
    match i.onGrid? (point - n) with
    | some t => (t, point - n)
    | none => i.search point fuel (n + 1)

/-- The decimal `t · 10 ^ g` without zeros at its end. -/
def normalize (negative : Bool) (t : Nat) (g : Int) : Decimal :=
  let digits := Nat.toDigits 10 t
  ⟨negative, (digits.reverse.dropWhile (· == '0')).reverse, digits.length + g⟩

/-- The shortest decimal of a number other than zero whose neighbours lie half a unit of the last
of `bits` mantissa bits away; with `narrow`, the lower neighbour of a power of two is closer. -/
def shortest (bits : Nat) (narrow : Bool) (x : Binary) : Decimal :=
  if x.mantissa = 0 then ⟨x.negative, [], 0⟩
  else
    let lift := bits - bitLength x.mantissa
    let (m, e) := if narrow then (x.mantissa, x.exponent)
      else (x.mantissa * Nat.pow 2 lift, x.exponent - lift)
    let lowGap := if narrow && m == Nat.pow 2 (bits - 1) && x.exponent != -1074 then 1 else 2
    let scale : Int := e - 2
    let up := Nat.pow 2 scale.toNat
    let i : Interval :=
      ⟨(4 * m - lowGap) * up, 4 * m * up, (4 * m + 2) * up, Nat.pow 2 (-scale).toNat, m % 2 == 0⟩
    let point := i.point
    let (t, g) := i.search point 400 1
    normalize x.negative t g

/-- The shortest decimal of a double. -/
def ofDouble (x : Binary) : Decimal := shortest 53 true x

def sign (d : Decimal) : List Char := if d.negative then ['-'] else []

/-- Digits with a decimal point and no exponent. -/
def positional (d : Decimal) : String :=
  let zeros (n : Int) : List Char := List.replicate n.toNat '0'
  let body :=
    if d.digits.isEmpty then ['0']
    else if d.point ≤ 0 then '0' :: '.' :: (zeros (-d.point) ++ d.digits)
    else if (d.digits.length : Int) ≤ d.point then
      d.digits ++ zeros (d.point - d.digits.length)
    else d.digits.take d.point.toNat ++ '.' :: d.digits.drop d.point.toNat
  String.ofList (d.sign ++ body)

/-- One digit before the point and an exponent of at least two digits. -/
def scientific (d : Decimal) : String :=
  match d.digits with
  | [] => d.positional
  | first :: rest =>
    let e := d.point - 1
    let eDigits := Nat.toDigits 10 e.natAbs
    let padded := if eDigits.length < 2 then '0' :: eDigits else eDigits
    String.ofList (d.sign ++ first :: (if rest.isEmpty then [] else '.' :: rest) ++
      'e' :: (if e < 0 then '-' else '+') :: padded)

/-- An exponent is written below `10 ^ -4` and from `10 ^ 6` on. -/
def general (d : Decimal) : String :=
  let e := d.point - 1
  if d.digits.isEmpty then d.positional
  else if e < -4 ∨ 6 ≤ e then d.scientific
  else d.positional

end Decimal

end TaskLoom
